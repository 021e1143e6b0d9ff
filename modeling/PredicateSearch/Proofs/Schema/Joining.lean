import PredicateSearch.Proofs.Schema.Moved

namespace PredicateSearch

open Schema

theorem Schema.ColumnDeclaration.relocate_id : relocate id = id := by
  funext d
  change { d with documentation := d.documentation.map id } = d
  rw [Option.map_id, id]

theorem Schema.ModelDeclaration.relocate_id : relocate id = id := by
  funext d
  change { d with
    documentation := d.documentation.map id, columns := d.columns.map (ColumnDeclaration.relocate id) } = d
  rw [Option.map_id, ColumnDeclaration.relocate_id, List.map_id, id]

namespace Schema

namespace Rule.Repeated

variable {α : Type} {r : Rule α} {c c' d e : Cursor} {as bs : List α}

theorem append (h : Repeated r c as d) (h' : Repeated r d bs e) : Repeated r c (as ++ bs) e := by
  induction h with
  | nil c => exact h'
  | cons ha _ ih => exact .cons ha (ih h')

/-- The readings are the same from wherever the same gap ends. -/
theorem of_skip_eq (hc : skip false c'.offset c'.rest = skip false c.offset c.rest) (h : Repeated r c as d) :
    ∃ d', Repeated r c' as d' ∧ afterGap d'.rest = afterGap d.rest := by
  cases h with
  | nil => exact ⟨c', .nil c', by rw [← rest_gap, hc, rest_gap]⟩
  | cons ha h => exact ⟨d, .cons (hc ▸ ha) h, rfl⟩

theorem moved_models (n : Nat) (ext : List Char) (hext : ext.head? ≠ some '/') {ds : List ModelDeclaration}
    (h : Repeated model c ds d) :
    Repeated model (c.moved n ext) (ds.map (ModelDeclaration.relocate (Span.shift n))) (d.moved n ext) :=
  h.moved hext (carries_model (Q := fun _ => True) hext) (reads_model.opens Form.starts_model)
    (fun _ _ _ _ _ => trivial) trivial

end Rule.Repeated

theorem declarations_eq_ok_repeated {text : List Char} {ds : List ModelDeclaration} :
    declarations text = .ok ds ↔ ∃ d, Rule.Repeated Rule.model ⟨text, 0⟩ ds d ∧ afterGap d.rest = [] := by
  simp only [declarations_eq_ok, Rule.reading_schema_eq_some]
  constructor
  · rintro ⟨c, d, hm, he, -⟩
    rcases Rule.repeated_of_many hm with ⟨rfl, rfl⟩ | ⟨a, u, bs, rfl, ha, hs⟩
    · have ht : afterGap (afterGap text) = [] := by
        rw [← Rule.rest_gap ⟨text, 0⟩]
        exact he
      exact ⟨_, .nil _, afterGap_afterGap text ▸ ht⟩
    · exact ⟨d, .cons ha hs, he⟩
  · rintro ⟨d, h, he⟩
    have hd : Sql.stops (fun x => x = '/' || x = 'm') (afterGap d.rest) = true := by
      rw [he]
      rfl
    cases h with
    | nil =>
        have hg := Rule.rest_gap ⟨text, 0⟩
        have hn := Rule.refuses_model (skip false 0 text) (by rw [hg, afterGap_afterGap]) (by rw [hg]; exact hd)
        refine ⟨_, skip false 0 text, ?_, ?_, rfl⟩
        · rw [Rule.reading_many, hn]
        · rw [hg, afterGap_afterGap]
          exact he
    | cons ha hs =>
        refine ⟨_, d, ?_, he, rfl⟩
        rw [Rule.reading_many, ha]
        dsimp only
        rw [Rule.repeats_model.more_of_repeated hs hd]
        rfl

/-- At the seam a gap goes on into the second text, even out of a comment. -/
theorem skip_seam (commented : Bool) (n : Nat) (s t : List Char) (h : (skip commented n s).rest = []) :
    skip commented n (s ++ '\n' :: t) = skip false (n + byteLength s + 1) t := by
  fun_induction skip commented n s with
  | case1 commented n =>
      cases commented with
      | true => exact skip_commented n '\n' t
      | false => exact skip_space rfl n t
  | case2 n c s ih =>
      rw [List.cons_append, skip_commented, ih h, byteLength_cons, Nat.add_assoc n]
  | case3 commented n c s hb hc ih =>
      rw [Bool.eq_false_iff.2 hb, List.cons_append, skip_space hc, ih h, byteLength_cons, Nat.add_assoc n]
  | case4 commented n hb t ht => cases h
  | case5 commented n hb u hu _ ih =>
      have hs : (u ++ '\n' :: t).head? ≠ some '/' := by
        cases u with
        | nil => simp
        | cons c u => exact hu
      have ih := ih h
      rw [Bool.eq_false_iff.2 hb, List.cons_append, List.cons_append, skip_slashes hs, ih, byteLength_cons,
        byteLength_cons]
      congr 1
      have hz : '/'.utf8Size = 1 := rfl
      omega
  | case6 commented n c s hb hc ht => cases h

/-- What is declared in the second text is declared behind the first one. -/
theorem declarations_join {s t : List Char} {ds es : List ModelDeclaration} (hs : declarations s = .ok ds)
    (ht : declarations t = .ok es) :
    declarations (s ++ '\n' :: t) =
      .ok (ds ++ es.map (ModelDeclaration.relocate (Span.shift (byteLength s + 1)))) := by
  obtain ⟨d, hd, hde⟩ := declarations_eq_ok_repeated.1 hs
  obtain ⟨e, he, hee⟩ := declarations_eq_ok_repeated.1 ht
  have hfirst := hd.moved_models 0 ('\n' :: t) (by simp)
  have hsecond := he.moved_models (byteLength s + 1) [] (by simp)
  rw [Span.shift_zero, ModelDeclaration.relocate_id, List.map_id] at hfirst
  obtain ⟨p, hp⟩ := Rule.advances_model.repeated hd
  have hlength : d.offset + byteLength d.rest = byteLength s := by
    have hs : s = p ++ d.rest := hp.rest
    rw [hs, byteLength_append, hp.offset, Nat.zero_add]
  -- The gap behind the last model of the first text goes on into the one in front of the second text.
  have hseam : skip false (d.moved 0 ('\n' :: t)).offset (d.moved 0 ('\n' :: t)).rest =
      skip false (byteLength s + 1) t := by
    refine (skip_seam false d.offset d.rest t ?_).trans (by rw [hlength])
    rw [Rule.rest_gap, hde]
  rw [Cursor.moved, List.append_nil, Nat.zero_add] at hsecond
  obtain ⟨e', he', hee'⟩ := hsecond.of_skip_eq hseam
  refine declarations_eq_ok_repeated.2 ⟨e', hfirst.append he', ?_⟩
  rw [hee', Cursor.moved, List.append_nil, hee]

/-- What is added to a schema comes behind what it has, but for the first model whose name is taken. -/
theorem addDeclarations_append {ds es : List ModelDeclaration} {s₁ : Schema} {ms : List Model}
    (hd : addDeclarations {} ds = .ok s₁) (he : List.Forall₂ (fun d m => Model.ofDeclaration d = .ok m) es ms)
    (hn : (ms.map Model.key).Nodup) :
    addDeclarations {} (ds ++ es) =
      match ms.find? fun m => m.key ∈ s₁.names with
      | none => .ok ⟨s₁.models ++ ms⟩
      | some m => .error (.duplicateModel m.key) := by
  rw [addDeclarations_eq] at hd ⊢
  obtain ⟨ms₁, hms, rfl⟩ := map_eq_ok.1 hd
  have hx : extendModels [] (ds ++ es) = extendModels ms₁ es := by
    rw [extendModels, Keyed.extend_append]
    exact congrArg (· >>= fun r => extendModels r es) hms
  change (extendModels [] (ds ++ es)).map Schema.mk = _
  rw [hx, extendModels, Keyed.extend_of_forall₂ he hn, names]
  cases ms.find? fun m => m.key ∈ ms₁.map Model.key <;> rfl

/-- Two texts that can be read can be read as one. The second keeps all but its place, and names of the first must
not come again in it. -/
theorem parse_join {t₁ t₂ : String} {s₁ s₂ : Schema} (h₁ : parse t₁ = .ok s₁) (h₂ : parse t₂ = .ok s₂) :
    ((∀ n ∈ s₁.names, n ∉ s₂.names) →
      parse (t₁ ++ "\n" ++ t₂) =
        .ok ⟨s₁.models ++ s₂.models.map (Model.relocate (Span.shift (t₁.utf8ByteSize + 1)))⟩) ∧
    ∀ m, s₂.models.find? (fun m => m.key ∈ s₁.names) = some m →
      parse (t₁ ++ "\n" ++ t₂) = .error (.duplicateModel m.key) := by
  obtain ⟨ds, hd, h₁⟩ := bind_eq_ok.1 h₁
  obtain ⟨es, he, hes, hn⟩ := parse_eq_ok.1 h₂
  have ht : (t₁ ++ "\n" ++ t₂).toList = t₁.toList ++ '\n' :: t₂.toList := by simp
  have hp : parse (t₁ ++ "\n" ++ t₂) =
      addDeclarations {} (ds ++ es.map (ModelDeclaration.relocate (Span.shift (t₁.utf8ByteSize + 1)))) := by
    rw [parse, ht, declarations_join hd he, byteLength_toList]
    rfl
  have hes := Model.ofDeclaration_relocate_all (Span.shift (t₁.utf8ByteSize + 1)) hes
  have hkeys : (s₂.models.map (Model.relocate (Span.shift (t₁.utf8ByteSize + 1)))).map Model.key = s₂.names :=
    List.map_map
  have hfind : (s₂.models.map (Model.relocate (Span.shift (t₁.utf8ByteSize + 1)))).find? (fun m => m.key ∈ s₁.names) =
      (s₂.models.find? fun m => m.key ∈ s₁.names).map (Model.relocate (Span.shift (t₁.utf8ByteSize + 1))) :=
    List.find?_map
  rw [hp, addDeclarations_append h₁ hes (hkeys ▸ hn), hfind]
  constructor
  · intro h
    have hnone : (s₂.models.find? fun m => m.key ∈ s₁.names) = none := by
      rw [List.find?_eq_none]
      intro m hm hk
      exact h m.key (of_decide_eq_true hk) (List.mem_map_of_mem hm)
    rw [hnone]
    rfl
  · intro m hm
    rw [hm]
    rfl

/-- A comment that nothing ends does not swallow the second text, and a model is not declared twice. -/
theorem parse_join_comment :
    ∃ s₁ s₂, parse "model A\x7b\x7d//\u00e9" = .ok s₁ ∧ parse "/// y\nmodel B\x7b\x7d" = .ok s₂ ∧
      parse ("model A\x7b\x7d//\u00e9" ++ "\n" ++ "/// y\nmodel B\x7b\x7d") =
        .ok ⟨s₁.models ++ s₂.models.map (Model.relocate (Span.shift 14))⟩ ∧
      parse ("model A\x7b\x7d//\u00e9" ++ "\n" ++ "model A\x7b\x7d//\u00e9") = .error (.duplicateModel "A") := by
  have h₁ : parse "model A\x7b\x7d//\u00e9" = .ok ⟨[⟨⟨"A", ⟨6, 7⟩⟩, [], none, none, ⟨0, 9⟩⟩]⟩ := by
    rw [parse_eq]
    cbv
  have h₂ : parse "/// y\nmodel B\x7b\x7d" =
      .ok ⟨[⟨⟨"B", ⟨12, 13⟩⟩, [], none, some ⟨"y", ⟨0, 6⟩⟩, ⟨6, 15⟩⟩]⟩ := by
    rw [parse_eq]
    cbv
  exact ⟨_, _, h₁, h₂, (parse_join h₁ h₂).1 (by decide), (parse_join h₁ h₁).2 _ rfl⟩

end Schema

end PredicateSearch
