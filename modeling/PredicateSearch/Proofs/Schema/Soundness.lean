import Mathlib.Data.List.Basic
import Mathlib.Data.List.TakeWhile
import PredicateSearch.Proofs.Schema.Gap

namespace PredicateSearch.Schema

namespace Rule

variable {α β γ δ : Type}

/-! What a combination of rules reads, wherever it fails on the way -/

theorem reading_pure (a : α) (c : Cursor) : ((pure a : Rule α) c).reading = some (a, c) := rfl

theorem reading_bind (r : Rule α) (k : α → Rule β) (c : Cursor) :
    ((r >>= k) c).reading = (r c).reading.bind fun x => (k x.1 x.2).reading := by
  change (Rule.bind r k c).reading = _
  rw [Rule.bind]
  rcases r c with ⟨n, _ | ⟨a, d⟩⟩ <;> rfl

theorem reading_optional (r : Rule α) (c : Cursor) :
    (optional r c).reading = some (((r c).reading.map fun x => (some x.1, x.2)).getD (none, c)) := by
  rw [optional]
  rcases r c with ⟨n, _ | ⟨a, d⟩⟩ <;> rfl

theorem reading_counted (r : Rule α) (c : Cursor) : (counted r c).reading = (r c).reading := by
  rw [counted]
  rcases r c with ⟨n, _ | ⟨a, d⟩⟩ <;> rfl

theorem reading_spanned (r : Rule α) (c : Cursor) :
    (spanned r c).reading = (r c).reading.map fun x => ((x.1, ⟨c.offset, x.2.offset⟩), x.2) := by
  rw [spanned]
  rcases r c with ⟨n, _ | ⟨a, d⟩⟩ <;> rfl

theorem reading_literal (l : List Char) (c : Cursor) :
    (literal l c).reading = (l.isPrefixOf? c.rest).map fun s => ((), ⟨s, c.offset + byteLength l⟩) := by
  rw [literal]
  cases l.isPrefixOf? c.rest <;> rfl

theorem reading_gap (c : Cursor) : (gap c).reading = some ((), skip false c.offset c.rest) := rfl

theorem reading_gap_bind (r : Rule α) (c : Cursor) :
    ((gap >>= fun _ => r) c).reading = (r (skip false c.offset c.rest)).reading := by
  rw [reading_bind, reading_gap, Option.bind_some]

theorem rest_gap (c : Cursor) : (skip false c.offset c.rest).rest = afterGap c.rest := rest_skip _ _ _ _

theorem reading_bind_eq_some {r : Rule α} {k : α → Rule β} {c e : Cursor} {b : β} :
    ((r >>= k) c).reading = some (b, e) ↔ ∃ a d, (r c).reading = some (a, d) ∧ (k a d).reading = some (b, e) := by
  rw [reading_bind, Option.bind_eq_some_iff]
  constructor
  · rintro ⟨⟨a, d⟩, ha, hb⟩
    exact ⟨a, d, ha, hb⟩
  · rintro ⟨a, d, ha, hb⟩
    exact ⟨(a, d), ha, hb⟩

theorem reading_spanned_eq_some {r : Rule α} {c d : Cursor} {x : α × Span} :
    (spanned r c).reading = some (x, d) ↔ (r c).reading = some (x.1, d) ∧ x.2 = ⟨c.offset, d.offset⟩ := by
  rw [reading_spanned, Option.map_eq_some_iff]
  constructor
  · rintro ⟨⟨a, e⟩, ha, hx⟩
    cases hx
    exact ⟨ha, rfl⟩
  · rintro ⟨ha, hx⟩
    exact ⟨(x.1, d), ha, by rw [← hx]⟩

theorem reading_optional_eq_some {r : Rule α} {c d : Cursor} {x : Option α}
    (h : (optional r c).reading = some (x, d)) :
    x = none ∧ d = c ∨ ∃ a, x = some a ∧ (r c).reading = some (a, d) := by
  rw [reading_optional] at h
  cases hr : (r c).reading with
  | none =>
      rw [hr] at h
      cases h
      exact .inl ⟨rfl, rfl⟩
  | some y =>
      rw [hr] at h
      cases h
      exact .inr ⟨y.1, rfl, rfl⟩

/-- Whatever the rule reads is written in the form, as far as `e` tells of it. -/
def Reads (r : Rule α) (e : α → β) (f : Form β) : Prop :=
  ∀ c a d, (r c).reading = some (a, d) → f c.rest (e a) d.rest

/-- The same of a rule that may go on over a gap behind the form. -/
def ReadsUpToGap (r : Rule α) (e : α → β) (f : Form β) : Prop :=
  ∀ c a d, (r c).reading = some (a, d) → ∃ t, f c.rest (e a) t ∧ Form.Gap t d.rest

namespace Reads

variable {r : Rule α} {e : α → β} {f : Form β}

theorem pure {a : α} {b : β} (h : e a = b) : Reads (Pure.pure a) e (Pure.pure b) := by
  rintro c _ _ ⟨⟩
  exact ⟨h, rfl⟩

theorem bind {k : α → Rule γ} {e' : γ → δ} {g : β → Form δ} (hr : Reads r e f)
    (hk : ∀ a, Reads (k a) e' (g (e a))) : Reads (r >>= k) e' (f >>= g) := by
  intro c x d h
  obtain ⟨a, u, ha, hx⟩ := reading_bind_eq_some.1 h
  exact ⟨e a, u.rest, hr _ _ _ ha, hk a _ _ _ hx⟩

theorem map {h : α → γ} {e' : γ → β} (hr : Reads r e f) (he : ∀ a, e' (h a) = e a) :
    Reads (r >>= fun a => Pure.pure (h a)) e' f := by
  intro c x d hd
  obtain ⟨a, u, ha, hx⟩ := reading_bind_eq_some.1 hd
  cases hx
  rw [he]
  exact hr _ _ _ ha

theorem counted (hr : Reads r e f) : Reads (Rule.counted r) e f := by
  intro c a d h
  rw [reading_counted] at h
  exact hr _ _ _ h

theorem spanned (hr : Reads r e f) : Reads (Rule.spanned r) (e ∘ Prod.fst) f :=
  fun c x d h => hr c x.1 d (reading_spanned_eq_some.1 h).1

theorem optional (hr : Reads r e f) : Reads (Rule.optional r) (Option.map e) (Form.optional f) := by
  intro c x d h
  rcases reading_optional_eq_some h with ⟨rfl, rfl⟩ | ⟨a, rfl, ha⟩
  · rfl
  · exact hr c a d ha

theorem literal (l : List Char) : Reads (Rule.literal l) id (Form.literal l) := by
  intro c _ d h
  rw [reading_literal] at h
  obtain ⟨s, hs, hd⟩ := Option.map_eq_some_iff.1 h
  cases hd
  exact (List.isPrefixOf?_eq_some_iff_append_eq.1 hs).symm

theorem char (p : Char → Bool) : Reads (Rule.char p) id (Form.char p) := by
  intro c a d h
  rw [Rule.char] at h
  split at h
  · next b rest hc =>
      split at h
      · next hp =>
          cases h
          exact ⟨hc, hp⟩
      · cases h
  · cases h

theorem run (p : Char → Bool) : Reads (Rule.run p) id (Form.run p) := by
  rintro c _ _ ⟨⟩
  refine ⟨List.takeWhile_append_dropWhile.symm, fun a ha => List.mem_takeWhile_imp ha, ?_⟩
  cases h : c.rest.dropWhile p with
  | nil => rfl
  | cons a s =>
      have ha := List.head?_dropWhile_not p c.rest
      rw [h] at ha
      simpa [Sql.stops] using ha

theorem finish : Reads Rule.finish id Form.finish := by
  intro c _ d h
  rw [Rule.finish] at h
  split at h
  · next hc =>
      cases h
      exact ⟨hc, hc⟩
  · cases h

theorem gap : Reads Rule.gap id Form.gap := by
  rintro c _ _ ⟨⟩
  rw [Form.gap, rest_gap]
  exact Form.gap_afterGap c.rest

end Reads

theorem reading_more (r : Rule α) (c : Cursor) :
    (more r c).reading =
      match (r (skip false c.offset c.rest)).reading with
      | none => some ([], c)
      | some (a, d) =>
        if d.rest.length < c.rest.length then (more r d).reading.map fun x => (a :: x.1, x.2)
        else some ([], c) := by
  have hb := reading_gap_bind r c
  rw [more]
  rcases hg : (gap >>= fun _ => r) c with ⟨n, x⟩
  rw [hg] at hb
  rw [← hb]
  rcases x with _ | ⟨a, d⟩
  · rfl
  · dsimp only
    split <;> rfl

theorem Reads.more {r : Rule α} {e : α → β} {f : Form β} (hr : Reads r e f) {c d : Cursor} {as : List α}
    (h : (Rule.more r c).reading = some (as, d)) :
    as = [] ∧ d = c ∨ ∃ s, Form.Gap c.rest s ∧ Form.Many1 f s (as.map e) d.rest := by
  induction hn : c.rest.length using Nat.strongRecOn generalizing c as with
  | ind n ih =>
      rw [reading_more] at h
      split at h
      · cases h
        exact .inl ⟨rfl, rfl⟩
      · next a u hu =>
          split at h
          · next hlt =>
              obtain ⟨⟨bs, v⟩, hv, hx⟩ := Option.map_eq_some_iff.1 h
              cases hx
              have hg := Form.gap_afterGap c.rest
              have ha := hr _ _ _ hu
              rw [rest_gap] at ha
              refine .inr ⟨_, hg, ?_⟩
              rcases ih _ (hn ▸ hlt) hv rfl with ⟨rfl, rfl⟩ | ⟨s, hs, hm⟩
              · exact .last ha
              · exact .cons ha hs hm
          · cases h
            exact .inl ⟨rfl, rfl⟩

theorem reading_many (r : Rule α) (c : Cursor) :
    (many r c).reading =
      match (r c).reading with
      | none => some ([], c)
      | some (a, d) => (more r d).reading.map fun x => (a :: x.1, x.2) := by
  rw [many, reading_bind, reading_optional]
  rcases (r c).reading with _ | ⟨a, d⟩
  · rfl
  · refine (reading_bind _ _ d).trans ?_
    cases h : (more r d).reading <;> simp [h, reading_pure]

namespace Reads

variable {r : Rule α} {e : α → β} {f : Form β}

theorem many (hr : Reads r e f) : Reads (Rule.many r) (List.map e) (Form.many f) := by
  intro c as d h
  rw [reading_many] at h
  split at h
  · cases h
    exact .inl ⟨rfl, rfl⟩
  · next a u hu =>
      obtain ⟨⟨bs, v⟩, hv, hx⟩ := Option.map_eq_some_iff.1 h
      cases hx
      rcases hr.more hv with ⟨rfl, rfl⟩ | ⟨s, hs, hm⟩
      · exact .inr (.last (hr _ _ _ hu))
      · exact .inr (.cons (hr _ _ _ hu) hs hm)

theorem many1 (hr : Reads r e f) : ReadsUpToGap (Rule.many1 r) (List.map e) (Form.many1 f) := by
  intro c as d h
  obtain ⟨a, u, hu, h⟩ := reading_bind_eq_some.1 h
  rw [reading_gap_bind] at h
  obtain ⟨bs, v, hv, hx⟩ := reading_bind_eq_some.1 h
  cases hx
  have hg : Form.Gap u.rest (afterGap u.rest) := Form.gap_afterGap u.rest
  have hm := hr.many _ _ _ hv
  rw [rest_gap] at hm
  rcases hm with ⟨hbs, hd⟩ | hm
  · cases List.map_eq_nil_iff.1 hbs
    exact ⟨u.rest, .last (hr _ _ _ hu), hd ▸ hg⟩
  · exact ⟨_, .cons (hr _ _ _ hu) hg hm, .done _⟩

end Reads

namespace ReadsUpToGap

variable {r : Rule α} {e : α → β} {f : Form β}

theorem map {h : α → γ} {e' : γ → δ} {h' : β → δ} (hr : ReadsUpToGap r e f) (he : ∀ a, e' (h a) = h' (e a)) :
    ReadsUpToGap (r >>= fun a => Pure.pure (h a)) e' (f >>= fun b => Pure.pure (h' b)) := by
  intro c x d hd
  obtain ⟨a, u, ha, hx⟩ := reading_bind_eq_some.1 hd
  cases hx
  obtain ⟨t, ht, hg⟩ := hr _ _ _ ha
  exact ⟨t, ⟨e a, t, ht, he a, rfl⟩, hg⟩

theorem counted (hr : ReadsUpToGap r e f) : ReadsUpToGap (Rule.counted r) e f := by
  intro c a d h
  rw [reading_counted] at h
  exact hr _ _ _ h

theorem spanned (hr : ReadsUpToGap r e f) : ReadsUpToGap (Rule.spanned r) (e ∘ Prod.fst) f :=
  fun c x d h => hr c x.1 d (reading_spanned_eq_some.1 h).1

theorem optional (hr : ReadsUpToGap r e f) :
    ReadsUpToGap (Rule.optional r) (Option.map e) (Form.optional f) := by
  intro c x d h
  rcases reading_optional_eq_some h with ⟨rfl, rfl⟩ | ⟨a, rfl, ha⟩
  · exact ⟨d.rest, rfl, .done _⟩
  · exact hr c a d ha

theorem bind_gap {k : α → Rule γ} {e' : γ → δ} {g : β → Form δ} (hr : ReadsUpToGap r e f)
    (hk : ∀ a, Reads (k a) e' (g (e a))) :
    Reads (r >>= fun a => Rule.gap >>= fun _ => k a) e' (f >>= fun a => Form.gap >>= fun _ => g a) := by
  intro c x d h
  obtain ⟨a, u, ha, h⟩ := reading_bind_eq_some.1 h
  rw [reading_gap_bind] at h
  obtain ⟨t, ht, hg⟩ := hr _ _ _ ha
  have hx := hk a _ _ _ h
  rw [rest_gap] at hx
  exact ⟨e a, t, ht, (), _, hg.trans (Form.gap_afterGap u.rest), hx⟩

end ReadsUpToGap

/-! The rules of the grammar -/

theorem reads_identifier : Reads identifier id Form.name := by
  refine Reads.counted ((Reads.char isNameStart).bind fun c => ?_)
  refine (Reads.run isNamePart).bind fun s => ?_
  exact .pure rfl

theorem reads_ident : Reads ident Ident.text Form.name := reads_identifier.spanned.map fun _ => rfl

theorem reads_stringLiteral : Reads stringLiteral id Form.stringLiteral := by
  refine Reads.counted ((Reads.literal ['"']).bind fun _ => ?_)
  refine (Reads.run _).bind fun s => ?_
  refine (Reads.literal ['"']).bind fun _ => ?_
  exact .pure rfl

theorem reads_documentationLine : Reads documentationLine id Form.documentationLine := by
  refine Reads.counted ((Reads.literal ['/', '/', '/']).bind fun _ => ?_)
  exact Reads.run _

theorem reads_documentation : ReadsUpToGap documentation Documentation.bare Form.documentation :=
  reads_documentationLine.many1.counted.spanned.map fun _ => by simp [Documentation.bare]

theorem reads_markArgument : Reads markArgument id Form.markArgument := by
  refine Reads.counted ((Reads.literal ['(']).bind fun _ => Reads.gap.bind fun _ => ?_)
  refine reads_stringLiteral.bind fun s => Reads.gap.bind fun _ => ?_
  refine (Reads.literal [')']).bind fun _ => ?_
  exact .pure rfl

theorem reads_mark : Reads mark id Form.mark := by
  refine Reads.counted ((Reads.literal ['@']).bind fun _ => ?_)
  refine reads_identifier.bind fun name => reads_markArgument.optional.bind fun argument => ?_
  exact .pure (by simp)

theorem reads_columnType : Reads columnType id Form.columnType := by
  refine Reads.counted (reads_identifier.bind fun name => ?_)
  refine (Reads.literal ['?']).counted.optional.bind fun question => ?_
  exact .pure (by simp)

theorem reads_columnBody (span : Span) :
    Reads columnBody (fun make => (make span).bare) Form.column := by
  refine Reads.counted (reads_documentation.optional.bind_gap fun documentation => ?_)
  refine reads_ident.bind fun name => Reads.gap.bind fun _ => ?_
  refine reads_columnType.bind fun (type, optional) => Reads.gap.bind fun _ => ?_
  refine reads_mark.many.bind fun marks => ?_
  exact .pure (by simp [ColumnDeclaration.bare, Ident.bare])

theorem reads_column : Reads column ColumnDeclaration.bare Form.column := by
  intro c x d h
  rw [column, reading_bind, reading_spanned] at h
  obtain ⟨⟨⟨make, span⟩, u⟩, hm, hx⟩ := Option.bind_eq_some_iff.1 h
  obtain ⟨⟨m, v⟩, hv, he⟩ := Option.map_eq_some_iff.1 hm
  cases he
  cases hx
  exact reads_columnBody _ _ _ _ hv

theorem reads_modelBody (documentation : Option Documentation) :
    Reads modelBody
      (fun x => ModelDeclaration.bare
        { documentation, name := x.1, marks := x.2.1, columns := x.2.2, span := {} })
      (Form.modelBody (documentation.map Documentation.bare)) := by
  refine Reads.counted ((Reads.literal _).bind fun _ => Reads.gap.bind fun _ => ?_)
  refine reads_ident.bind fun name => Reads.gap.bind fun _ => ?_
  refine reads_mark.many.bind fun marks => Reads.gap.bind fun _ => ?_
  refine (Reads.literal ['\x7b']).bind fun _ => Reads.gap.bind fun _ => ?_
  refine reads_column.many.bind fun columns => Reads.gap.bind fun _ => ?_
  refine (Reads.literal ['\x7d']).bind fun _ => ?_
  exact .pure (by simp [ModelDeclaration.bare, Ident.bare])

theorem reads_model : Reads model ModelDeclaration.bare Form.model := by
  refine reads_documentation.optional.bind_gap fun documentation => ?_
  exact (reads_modelBody documentation).spanned.map fun _ => rfl

theorem reads_schema : Reads schema (List.map ModelDeclaration.bare) Form.schema := by
  refine Reads.counted (Reads.gap.bind fun _ => reads_model.many.bind fun models => ?_)
  refine Reads.gap.bind fun _ => Reads.finish.counted.bind fun _ => ?_
  exact .pure rfl

theorem reading_schema_eq_some {s : List Char} {ds : List ModelDeclaration} {c : Cursor} :
    (schema ⟨s, 0⟩).reading = some (ds, c) ↔
      ∃ d, (many model (skip false 0 s)).reading = some (ds, d) ∧ afterGap d.rest = [] ∧
        c = skip false d.offset d.rest := by
  rw [schema, reading_counted, reading_gap_bind]
  constructor
  · intro h
    obtain ⟨models, d, hm, h⟩ := reading_bind_eq_some.1 h
    rw [reading_gap_bind] at h
    obtain ⟨⟨⟩, e, hf, h⟩ := reading_bind_eq_some.1 h
    have hx : some (models, e) = some (ds, c) := h
    cases hx
    rw [reading_counted, finish] at hf
    split at hf
    · next he =>
        cases hf
        exact ⟨d, hm, rest_gap d ▸ he, rfl⟩
    · cases hf
  · rintro ⟨d, hm, he, rfl⟩
    have hf : (finish (skip false d.offset d.rest)).reading = some ((), skip false d.offset d.rest) := by
      rw [finish, if_pos ((rest_gap d).trans he)]
    rw [reading_bind, hm, Option.bind_some, reading_gap_bind, reading_bind, reading_counted, hf]
    rfl

end Rule

theorem declarations_eq_ok {text : List Char} {ds : List ModelDeclaration} :
    declarations text = .ok ds ↔ ∃ c, (Rule.schema ⟨text, 0⟩).reading = some (ds, c) := by
  unfold declarations
  split
  · next h => simp [h]
  · next h => simp [h]

end PredicateSearch.Schema
