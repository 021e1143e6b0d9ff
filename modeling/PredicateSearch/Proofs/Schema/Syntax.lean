import PredicateSearch.Proofs.Schema.Completeness
import PredicateSearch.Schema.Reading

namespace PredicateSearch.Schema

open Sql (stops stops_mono)

namespace Form

/-- A schema takes up all of its text. -/
theorem rest_schema {s t : List Char} {bs : List ModelDeclaration} (h : schema s bs t) : t = [] := by
  obtain ⟨_, _, _, _, _, _, _, _, _, _, _, ⟨-, ht⟩, -, rfl⟩ := h
  exact ht

end Form

namespace Rule

variable {α β : Type} {stop : Char → Bool}

theorem reading_literal_cons {x : Char} {l : List Char} {c : Cursor} (hc : stops (· = x) c.rest = true) :
    (literal (x :: l) c).reading = none := by
  have hn : (x :: l).isPrefixOf? c.rest = none := by
    cases h : c.rest with
    | nil => rfl
    | cons y s =>
        have hy : x ≠ y := by
          rintro rfl
          simp [stops, h] at hc
        simp [List.isPrefixOf?, hy]
  rw [reading_literal, hn]
  rfl

theorem reading_literal_bind {x : Char} {l : List Char} {k : Unit → Rule α} {c : Cursor}
    (hc : stops (· = x) c.rest = true) : ((literal (x :: l) >>= k) c).reading = none := by
  rw [reading_bind, reading_literal_cons hc]
  rfl

theorem reading_char_bind {p : Char → Bool} {k : Char → Rule α} {c : Cursor} (hc : stops p c.rest = true) :
    ((char p >>= k) c).reading = none := by
  have hn : (char p c).reading = none := by
    rw [char]
    cases h : c.rest with
    | nil => rfl
    | cons y s =>
        have hy : p y = false := by simpa [stops, h] using hc
        simp [hy]
  rw [reading_bind, hn]
  rfl

theorem reading_identifier {c : Cursor} (hc : stops isNameStart c.rest = true) :
    (identifier c).reading = none := by
  rw [identifier, reading_counted]
  exact reading_char_bind hc

theorem refuses_documentationLine : Refuses documentationLine (· = '/') := by
  intro c _ hc
  rw [documentationLine, reading_counted]
  exact reading_literal_bind hc

theorem refuses_documentation : Refuses documentation (· = '/') := by
  intro c hg hc
  rw [documentation, reading_bind, reading_spanned, reading_counted, many1, reading_bind,
    refuses_documentationLine c hg hc]
  rfl

theorem refuses_mark : Refuses mark (· = '@') := by
  intro c _ hc
  rw [mark, reading_counted]
  exact reading_literal_bind hc

theorem reading_ident {c : Cursor} (hc : stops isNameStart c.rest = true) : (ident c).reading = none := by
  rw [ident, reading_bind, reading_spanned, reading_identifier hc]
  rfl

/-- Where no documentation can begin, what comes behind it is tried without one. -/
theorem reading_documented {k : Option Documentation → Rule α} {c : Cursor} (hg : afterGap c.rest = c.rest)
    (hc : stops (· = '/') c.rest = true) :
    ∃ d, d.rest = c.rest ∧
      ((optional documentation >>= fun x => gap >>= fun _ => k x) c).reading = (k none d).reading := by
  refine ⟨skip false c.offset c.rest, by rw [rest_gap, hg], ?_⟩
  rw [reading_bind, reading_optional, refuses_documentation c hg hc]
  rfl

theorem refuses_column : Refuses column (fun x => x = '/' || isNameStart x) := by
  intro c hg hc
  have hd : stops (· = '/') c.rest = true := stops_mono (by simp +contextual) hc
  have hn : stops isNameStart c.rest = true := stops_mono (by simp +contextual) hc
  rw [column, reading_bind, reading_spanned, columnBody, reading_counted]
  obtain ⟨d, he, hk⟩ := reading_documented hg hd
  rw [hk, reading_bind, reading_ident (he ▸ hn)]
  rfl

theorem refuses_model : Refuses model (fun x => x = '/' || x = 'm') := by
  intro c hg hc
  have hd : stops (· = '/') c.rest = true := stops_mono (by simp +contextual) hc
  have hm : stops (· = 'm') c.rest = true := stops_mono (by simp +contextual) hc
  obtain ⟨d, he, hk⟩ := reading_documented hg hd
  rw [model, hk, reading_bind, reading_spanned, modelBody, reading_counted, reading_literal_bind (he ▸ hm)]
  rfl

theorem takes_identifier : Takes identifier id Form.name stop := by
  refine Takes.counted ((Takes.char isNameStart).bind fun c => ?_)
  refine (Takes.run isNamePart).bind fun s => ?_
  exact .pure rfl

theorem takes_ident : Takes ident Ident.text Form.name stop := takes_identifier.spanned.map fun _ => rfl

theorem takes_stringLiteral : Takes stringLiteral id Form.stringLiteral stop := by
  refine Takes.counted ((Takes.literal ['"']).bind fun _ => ?_)
  refine (Takes.run _).bind fun s => (Takes.literal ['"']).bind fun _ => ?_
  exact .pure rfl

theorem takes_documentationLine : Takes documentationLine id Form.documentationLine stop := by
  refine Takes.counted ((Takes.literal ['/', '/', '/']).bind fun _ => ?_)
  exact Takes.run _

theorem takes_markArgument : Takes markArgument id Form.markArgument stop := by
  refine Takes.counted ((Takes.literal ['(']).bind fun _ => Takes.gap ?_ ?_)
  · refine takes_stringLiteral.bind fun s => Takes.gap ?_ (Form.isTight_literal (by decide) _)
    refine (Takes.literal [')']).bind fun _ => ?_
    exact .pure rfl
  · exact (Form.begins_literal '"' []).bind.bind.isTight (Form.sign_apart (by decide))

theorem takes_mark : Takes mark id Form.mark (· = '(') := by
  have ha : Takes (optional markArgument) (Option.map id) (Form.optional Form.markArgument) (· = '(') := by
    refine takes_markArgument.optional fun c hc => ?_
    rw [markArgument, reading_counted]
    exact reading_literal_bind hc
  refine Takes.counted ((Takes.literal ['@']).bind fun _ => takes_identifier.bind fun name => ?_)
  exact ha.bind_pure fun x => by simp

theorem takes_columnType : Takes columnType id Form.columnType (· = '?') := by
  have hq : Takes (optional questionMark) (Option.map id) (Form.optional (Form.literal ['?'])) (· = '?') := by
    refine (Takes.literal ['?']).counted.optional fun c hc => ?_
    rw [reading_counted]
    exact reading_literal_cons hc
  refine Takes.counted (takes_identifier.bind fun name => ?_)
  exact hq.bind_pure fun x => by simp

theorem repeats_documentationLine :
    Repeats documentationLine id Form.documentationLine (fun _ => false) (· = '/') where
  reads := reads_documentationLine
  finds := takes_documentationLine.finds Form.isTight_documentationLine (by simp)
  refuses := refuses_documentationLine
  starts := Form.starts_documentationLine
  apart _ _ := rfl
  shorter _ _ _ h := Form.spends_documentationLine.shorter h

theorem finds_documentation : Finds documentation Documentation.bare Form.documentation (· = '/') := by
  refine (repeats_documentationLine.many1.counted.spanned.bind_pure fun x => ?_).mono fun x hx => ?_
  · simp [Documentation.bare]
  · simpa using hx

theorem repeats_mark : Repeats mark id Form.mark (· = '(') (· = '@') where
  reads := reads_mark
  finds := takes_mark.finds (Form.isTight_literal (by decide) _) (Form.sign_apart (by decide))
  refuses := refuses_mark
  starts := Form.starts_mark
  apart x hx := by rw [of_decide_eq_true hx]; rfl
  shorter _ _ _ h := Form.spends_mark.shorter h

theorem apart_sign {y : Char} (h : stop y = false) (x : Char) (hx : decide (x = y) = true) :
    stop x = false := by
  rw [of_decide_eq_true hx]
  exact h

theorem apart_name {x y : Char} (hy : isNameStart y = false) (hx : isNameStart x = true) :
    decide (x = y) = false :=
  decide_eq_false (Sql.ne_of_class hx hy)

theorem finds_ident : Finds ident Ident.text Form.name (fun _ => false) :=
  takes_ident.finds Form.isTight_name (by simp)

theorem finds_literal {x : Char} {l : List Char} (hx : isSpace x = false ∧ x ≠ '/') :
    Finds (literal (x :: l)) id (Form.literal (x :: l)) (fun _ => false) :=
  (Takes.literal _).finds ((Form.begins_literal x l).isTight (Form.sign_apart hx)) (by simp)

theorem finds_columnBody (span : Span) :
    Finds columnBody (fun make => (make span).bare) Form.column (fun x => x = '?' || x = '(' || x = '@') := by
  have hd := finds_documentation.optional refuses_documentation
  have ht := takes_columnType.finds (Form.begins_name.bind.isTight Form.isNameStart_apart)
    (Form.sign_apart (by decide))
  refine Finds.counted (hd.bind_gap (fun documentation => ?_) ?_)
  · refine finds_ident.bind_gap (fun name => ?_) fun _ _ _ _ _ _ => stops_nothing _
    refine ht.bind_gap (fun type => ?_) ?_
    · refine (repeats_mark.many.bind_pure fun marks => ?_).mono ?_
      · simp [ColumnDeclaration.bare, Ident.bare]
      · simp +contextual
    · rintro _ s _ t ⟨marks, _, hm, -, rfl⟩ hs
      have hq : stops (· = '?') (afterGap t) = true := stops_mono (by simp +contextual) hs
      exact Form.starts_mark.stops_many (apart_sign rfl) hm hq
  · intro _ s _ t h _
    refine Form.starts_name.bind.stops (fun x hx => ?_) h
    simp [apart_name (y := '/') rfl hx]

theorem finds_column :
    Finds column ColumnDeclaration.bare Form.column (fun x => x = '?' || x = '(' || x = '@') := by
  intro c s b t hb hc ht
  obtain ⟨make, d, hm, -, -⟩ := finds_columnBody {} c s b t hb hc ht
  obtain ⟨make', d', hm', he, hd⟩ := finds_columnBody ⟨c.offset, d.offset⟩ c s b t hb hc ht
  cases hm.symm.trans hm'
  refine ⟨make ⟨c.offset, d.offset⟩, d, ?_, he, hd⟩
  rw [column, reading_bind, reading_spanned, hm]
  rfl

theorem repeats_column :
    Repeats column ColumnDeclaration.bare Form.column (fun x => x = '?' || x = '(' || x = '@')
      (fun x => x = '/' || isNameStart x) where
  reads := reads_column
  finds := finds_column
  refuses := refuses_column
  starts := Form.starts_column
  apart x hx := by
    rcases Bool.or_eq_true_iff.1 hx with hx | hx
    · rw [of_decide_eq_true hx]
      rfl
    · simp [apart_name (y := '?') rfl hx, apart_name (y := '(') rfl hx, apart_name (y := '@') rfl hx]
  shorter _ _ _ h := Form.spends_column.shorter h

theorem finds_modelBody (documentation : Option Documentation) :
    Finds modelBody
      (fun x => ModelDeclaration.bare
        { documentation, name := x.1, marks := x.2.1, columns := x.2.2, span := {} })
      (Form.modelBody (documentation.map Documentation.bare)) (fun _ => false) := by
  refine Finds.counted ((finds_literal (by decide)).bind_gap (fun _ => ?_) fun _ _ _ _ _ _ => stops_nothing _)
  refine finds_ident.bind_gap (fun name => ?_) fun _ _ _ _ _ _ => stops_nothing _
  refine repeats_mark.many.bind_gap (fun marks => ?_) ?_
  · refine (finds_literal (by decide)).bind_gap (fun _ => ?_) fun _ _ _ _ _ _ => stops_nothing _
    refine repeats_column.many.bind_gap (fun columns => ?_) ?_
    · refine Finds.bind_pure (finds_literal (by decide)) fun _ => ?_
      simp [ModelDeclaration.bare, Ident.bare]
    · intro _ s _ t h _
      exact (Form.starts_literal (by decide) _).stops (apart_sign rfl) h
  · intro _ s _ t h _
    exact (Form.starts_literal (by decide) _).stops (apart_sign rfl) h

theorem finds_model : Finds model ModelDeclaration.bare Form.model (fun _ => false) := by
  have hd := finds_documentation.optional refuses_documentation
  refine hd.bind_gap (fun documentation => (finds_modelBody documentation).spanned.map fun _ => rfl) ?_
  intro _ s _ t h _
  exact (Form.starts_modelBody _).stops (apart_sign rfl) h

theorem repeats_model :
    Repeats model ModelDeclaration.bare Form.model (fun _ => false) (fun x => x = '/' || x = 'm') where
  reads := reads_model
  finds := finds_model
  refuses := refuses_model
  starts := Form.starts_model
  apart _ _ := rfl
  shorter _ _ _ h := Form.spends_model.shorter h

/-- A text of the form is read, and as the form says. -/
theorem reading_schema {s : List Char} {bs : List ModelDeclaration} {t : List Char} (h : Form.schema s bs t) :
    ∃ ds c, (schema ⟨s, 0⟩).reading = some (ds, c) ∧ ds.map ModelDeclaration.bare = bs := by
  obtain ⟨_, u, hu, bs, v, hv, _, w, hw, _, x, ⟨rfl, rfl⟩, rfl, rfl⟩ := h
  have hs : afterGap v = [] := hw.afterGap_eq
  obtain ⟨ds, d, hd, hb, hr⟩ := repeats_model.many (skip false 0 s) u bs v hv
    (by rw [← hu.afterGap_eq]; exact rest_gap ⟨s, 0⟩) (by rw [hs]; rfl)
  exact ⟨ds, _, reading_schema_eq_some.2 ⟨d, hd, hr.trans hs, rfl⟩, hb⟩

end Rule

/-- The rules read what the forms derive, and nothing else. -/
theorem declarations_iff {text : List Char} {bs : List ModelDeclaration} :
    (∃ ds, declarations text = .ok ds ∧ ds.map ModelDeclaration.bare = bs) ↔ Form.schema text bs [] := by
  constructor
  · rintro ⟨ds, h, rfl⟩
    obtain ⟨c, hc⟩ := declarations_eq_ok.1 h
    have hs := Rule.reads_schema _ _ _ hc
    exact Form.rest_schema hs ▸ hs
  · intro h
    obtain ⟨ds, c, hc, hb⟩ := Rule.reading_schema h
    exact ⟨ds, declarations_eq_ok.2 ⟨c, hc⟩, hb⟩

end PredicateSearch.Schema
