import PredicateSearch.Proofs.Schema.Soundness

namespace PredicateSearch.Schema

/-! What a rule reads is the text between two cursors, and offsets count its bytes. -/

theorem foldl_utf8Size (s : List Char) (n : Nat) :
    s.foldl (fun n c => n + c.utf8Size) n = n + byteLength s := by
  induction s generalizing n with
  | nil => rfl
  | cons c s ih =>
      rw [byteLength, List.foldl_cons, List.foldl_cons, ih, ih, Nat.zero_add, Nat.add_assoc]

theorem byteLength_nil : byteLength [] = 0 := rfl

theorem byteLength_cons (c : Char) (s : List Char) : byteLength (c :: s) = c.utf8Size + byteLength s := by
  rw [byteLength, List.foldl_cons, foldl_utf8Size, Nat.zero_add]

theorem byteLength_append (s t : List Char) : byteLength (s ++ t) = byteLength s + byteLength t := by
  rw [byteLength, List.foldl_append, foldl_utf8Size]
  rfl

theorem byteLength_toList (s : String) : byteLength s.toList = s.utf8ByteSize := by
  have h : ∀ l : List Char, byteLength l = String.utf8Len l := by
    intro l
    induction l with
    | nil => rfl
    | cons c l ih => rw [byteLength_cons, ih, String.utf8Len_cons, Nat.add_comm]
  rw [h, ← String.utf8ByteSize_ofList, String.ofList_toList]

/-- `d` stands behind the characters `p` that follow `c`. -/
structure Cursor.Passes (c : Cursor) (p : List Char) (d : Cursor) : Prop where
  rest : c.rest = p ++ d.rest
  offset : d.offset = c.offset + byteLength p

namespace Cursor.Passes

theorem refl (c : Cursor) : c.Passes [] c := ⟨rfl, rfl⟩

theorem trans {c d e : Cursor} {p q : List Char} (h : c.Passes p d) (h' : d.Passes q e) :
    c.Passes (p ++ q) e := by
  constructor
  · rw [h.rest, h'.rest, List.append_assoc]
  · rw [h'.offset, h.offset, byteLength_append, Nat.add_assoc]

theorem char (c : Char) (s : List Char) (n : Nat) : Passes ⟨c :: s, n⟩ [c] ⟨s, n + c.utf8Size⟩ :=
  ⟨rfl, by rw [byteLength_cons, byteLength_nil, Nat.add_zero]⟩

theorem le {c d : Cursor} {p : List Char} (h : c.Passes p d) : c.offset ≤ d.offset := by
  have ho := h.offset
  omega

theorem eq {c d : Cursor} {p q : List Char} (h : c.Passes p d) (hq : c.rest = q ++ d.rest) : p = q :=
  List.append_cancel_right (h.rest.symm.trans hq)

end Cursor.Passes

theorem passes_skip (commented : Bool) (n : Nat) (s : List Char) :
    ∃ p, (⟨s, n⟩ : Cursor).Passes p (skip commented n s) := by
  fun_induction skip commented n s with
  | case1 commented n => exact ⟨[], .refl _⟩
  | case2 n c s ih =>
      obtain ⟨p, hp⟩ := ih
      exact ⟨[c] ++ p, (Cursor.Passes.char c s n).trans hp⟩
  | case3 commented n c s _ _ ih =>
      obtain ⟨p, hp⟩ := ih
      exact ⟨[c] ++ p, (Cursor.Passes.char c s n).trans hp⟩
  | case4 commented n => exact ⟨[], .refl _⟩
  | case5 commented n _ t _ _ ih =>
      obtain ⟨p, hp⟩ := ih
      exact ⟨['/'] ++ ['/'] ++ p, ((Cursor.Passes.char _ _ n).trans (.char _ _ _)).trans hp⟩
  | case6 commented n => exact ⟨[], .refl _⟩

namespace Rule

variable {α β : Type}

/-- Readings one after another, with a gap in front of each. -/
inductive Repeated (r : Rule α) : Cursor → List α → Cursor → Prop
  | nil (c) : Repeated r c [] c
  | cons {c u d a as} (ha : (r (skip false c.offset c.rest)).reading = some (a, u)) (h : Repeated r u as d) :
      Repeated r c (a :: as) d

theorem repeated_of_more {r : Rule α} {c d : Cursor} {as : List α} (h : (more r c).reading = some (as, d)) :
    Repeated r c as d := by
  induction hn : c.rest.length using Nat.strongRecOn generalizing c as with
  | ind n ih =>
      rw [reading_more] at h
      split at h
      · cases h
        exact .nil _
      · next a u hu =>
          split at h
          · next hlt =>
              obtain ⟨⟨bs, v⟩, hv, hx⟩ := Option.map_eq_some_iff.1 h
              cases hx
              exact .cons hu (ih _ (hn ▸ hlt) hv rfl)
          · cases h
            exact .nil _

theorem repeated_of_many {r : Rule α} {c d : Cursor} {as : List α} (h : (many r c).reading = some (as, d)) :
    as = [] ∧ d = c ∨ ∃ a u bs, as = a :: bs ∧ (r c).reading = some (a, u) ∧ Repeated r u bs d := by
  rw [reading_many] at h
  split at h
  · cases h
    exact .inl ⟨rfl, rfl⟩
  · next a u hu =>
      obtain ⟨⟨bs, v⟩, hv, hx⟩ := Option.map_eq_some_iff.1 h
      cases hx
      exact .inr ⟨a, u, bs, rfl, hu, repeated_of_more hv⟩

/-- Whatever the rule reads, it comes to stand behind it. -/
def Advances (r : Rule α) : Prop := ∀ c a d, (r c).reading = some (a, d) → ∃ p, c.Passes p d

namespace Advances

variable {r : Rule α} {k : α → Rule β}

theorem pure (a : α) : Advances (Pure.pure a : Rule α) := by
  rintro c _ _ ⟨⟩
  exact ⟨[], .refl c⟩

theorem split (hr : Advances r) {c e : Cursor} {b : β} (h : ((r >>= k) c).reading = some (b, e)) :
    ∃ a d p, (r c).reading = some (a, d) ∧ c.Passes p d ∧ (k a d).reading = some (b, e) := by
  obtain ⟨a, d, ha, hb⟩ := reading_bind_eq_some.1 h
  obtain ⟨p, hp⟩ := hr c a d ha
  exact ⟨a, d, p, ha, hp, hb⟩

theorem bind (hr : Advances r) (hk : ∀ a, Advances (k a)) : Advances (r >>= k) := by
  intro c b e h
  obtain ⟨a, d, p, -, hp, hb⟩ := hr.split h
  obtain ⟨q, hq⟩ := hk a d b e hb
  exact ⟨p ++ q, hp.trans hq⟩

theorem counted (hr : Advances r) : Advances (Rule.counted r) := by
  intro c a d h
  rw [reading_counted] at h
  exact hr c a d h

theorem spanned (hr : Advances r) : Advances (Rule.spanned r) :=
  fun c x d h => hr c x.1 d (reading_spanned_eq_some.1 h).1

theorem optional (hr : Advances r) : Advances (Rule.optional r) := by
  intro c x d h
  rcases reading_optional_eq_some h with ⟨-, rfl⟩ | ⟨a, -, ha⟩
  · exact ⟨[], .refl d⟩
  · exact hr c a d ha

theorem literal (l : List Char) : Advances (Rule.literal l) := by
  intro c a d h
  rw [reading_literal] at h
  obtain ⟨s, hs, hd⟩ := Option.map_eq_some_iff.1 h
  cases hd
  exact ⟨l, (List.isPrefixOf?_eq_some_iff_append_eq.1 hs).symm, rfl⟩

theorem char (p : Char → Bool) : Advances (Rule.char p) := by
  intro c a d h
  rw [Rule.char] at h
  split at h
  · next b rest hc =>
      split at h
      · cases h
        exact ⟨[a], hc, (Cursor.Passes.char a rest c.offset).offset⟩
      · cases h
  · cases h

theorem run (p : Char → Bool) : Advances (Rule.run p) := by
  rintro c _ _ ⟨⟩
  exact ⟨c.rest.takeWhile p, List.takeWhile_append_dropWhile.symm, rfl⟩

theorem gap : Advances Rule.gap := by
  rintro c _ _ ⟨⟩
  exact passes_skip false c.offset c.rest

theorem repeated {c d : Cursor} {as : List α} (hr : Advances r) (h : Repeated r c as d) : ∃ p, c.Passes p d := by
  induction h with
  | nil c => exact ⟨[], .refl c⟩
  | @cons c u d a as ha _ ih =>
      obtain ⟨p, hp⟩ := passes_skip false c.offset c.rest
      obtain ⟨q, hq⟩ := hr _ a u ha
      obtain ⟨t, ht⟩ := ih
      exact ⟨p ++ q ++ t, (hp.trans hq).trans ht⟩

theorem many (hr : Advances r) : Advances (Rule.many r) := by
  intro c as d h
  rcases repeated_of_many h with ⟨-, rfl⟩ | ⟨a, u, bs, -, ha, hs⟩
  · exact ⟨[], .refl d⟩
  · obtain ⟨p, hp⟩ := hr c a u ha
    obtain ⟨q, hq⟩ := repeated hr hs
    exact ⟨p ++ q, hp.trans hq⟩

theorem many1 (hr : Advances r) : Advances (Rule.many1 r) :=
  hr.bind fun a => Advances.gap.bind fun _ => hr.many.bind fun s => .pure (a :: s)

end Advances

/-! The rules of the grammar -/

theorem advances_identifier : Advances identifier := by
  refine Advances.counted ((Advances.char isNameStart).bind fun c => ?_)
  exact (Advances.run isNamePart).bind fun s => .pure _

theorem advances_ident : Advances ident := advances_identifier.spanned.bind fun _ => .pure _

theorem advances_documentationLine : Advances documentationLine :=
  Advances.counted ((Advances.literal ['/', '/', '/']).bind fun _ => Advances.run _)

theorem advances_documentation : Advances documentation :=
  advances_documentationLine.many1.counted.spanned.bind fun _ => .pure _

theorem advances_stringLiteral : Advances stringLiteral := by
  refine Advances.counted ((Advances.literal ['"']).bind fun _ => (Advances.run _).bind fun s => ?_)
  exact (Advances.literal ['"']).bind fun _ => .pure _

theorem advances_markArgument : Advances markArgument := by
  refine Advances.counted ((Advances.literal ['(']).bind fun _ => Advances.gap.bind fun _ => ?_)
  exact advances_stringLiteral.bind fun s => Advances.gap.bind fun _ => (Advances.literal [')']).bind fun _ => .pure _

theorem advances_mark : Advances mark := by
  refine Advances.counted ((Advances.literal ['@']).bind fun _ => advances_identifier.bind fun name => ?_)
  exact advances_markArgument.optional.bind fun argument => .pure _

theorem advances_columnType : Advances columnType := by
  refine Advances.counted (advances_identifier.bind fun name => ?_)
  exact (Advances.literal ['?']).counted.optional.bind fun question => .pure _

theorem advances_columnBody : Advances columnBody := by
  refine Advances.counted (advances_documentation.optional.bind fun documentation => Advances.gap.bind fun _ => ?_)
  refine advances_ident.bind fun name => Advances.gap.bind fun _ => ?_
  refine advances_columnType.bind fun type => Advances.gap.bind fun _ => ?_
  exact advances_mark.many.bind fun marks => .pure _

theorem advances_column : Advances column := advances_columnBody.spanned.bind fun _ => .pure _

theorem advances_modelBody : Advances modelBody := by
  refine Advances.counted ((Advances.literal _).bind fun _ => Advances.gap.bind fun _ => ?_)
  refine advances_ident.bind fun name => Advances.gap.bind fun _ => ?_
  refine advances_mark.many.bind fun marks => Advances.gap.bind fun _ => ?_
  refine (Advances.literal ['\x7b']).bind fun _ => Advances.gap.bind fun _ => ?_
  refine advances_column.many.bind fun columns => Advances.gap.bind fun _ => ?_
  exact (Advances.literal ['\x7d']).bind fun _ => .pure _

theorem advances_model : Advances model := by
  refine advances_documentation.optional.bind fun documentation => Advances.gap.bind fun _ => ?_
  exact advances_modelBody.spanned.bind fun _ => .pure _

end Rule

end PredicateSearch.Schema
