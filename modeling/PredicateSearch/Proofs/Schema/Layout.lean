import PredicateSearch.Proofs.Schema.Printable

namespace PredicateSearch

open Sql (stops)

namespace Schema

/-- The pieces that a schema is written with. Only between them may there be gaps. -/
inductive Piece where
  | documentation (line : List Char)
  | model
  | name (s : String)
  | type (t : ValueType) (optional : Bool)
  | mapStart
  | target (s : String)
  | mapEnd
  | bodyStart
  | bodyEnd
  deriving DecidableEq, Repr

namespace Piece

def text : Piece → List Char
  | documentation line => '/' :: '/' :: '/' :: ' ' :: line
  | model => ['m', 'o', 'd', 'e', 'l']
  | name s => s.toList
  | type t optional => t.name.toList ++ if optional then ['?'] else []
  | mapStart => ['@', 'm', 'a', 'p', '(']
  | target s => '"' :: s.toList ++ ['"']
  | mapEnd => [')']
  | bodyStart => ['\x7b']
  | bodyEnd => ['\x7d']

def beginsWithName : Piece → Bool
  | model | name _ | type _ _ => true
  | _ => false

def endsInName : Piece → Bool
  | name _ => true
  | type _ optional => !optional
  | _ => false

end Piece

/-- What may stand in a gap: white space, and comments that a newline ends. -/
inductive Filler : List Char → Prop
  | nil : Filler []
  | space {c g} (hc : isSpace c = true) (h : Filler g) : Filler (c :: g)
  | comment {t c g} (ht : ∀ x ∈ t, isNewline x = false) (hm : t.head? ≠ some '/') (hc : isNewline c = true)
      (h : Filler g) : Filler ('/' :: '/' :: (t ++ c :: g))

/-- A gap that may stand between a piece and those behind it. A newline ends a line of documentation, and
something must part two names. -/
structure Divides (p : Piece) (ps : List Piece) (g : List Char) : Prop where
  filler : Filler g
  newline : ∀ l, p = .documentation l → g.head?.any isNewline = true
  apart : p.endsInName = true → ps.head?.any Piece.beginsWithName = true → g ≠ []

inductive Laid : List Piece → List Char → Prop
  | nil : Laid [] []
  | cons {p ps g s} (hg : Divides p ps g) (h : Laid ps s) : Laid (p :: ps) (p.text ++ (g ++ s))

def targetPieces : Option String → List Piece
  | none => []
  | some t => [.mapStart, .target t, .mapEnd]

def documentationPieces : Option Documentation → List Piece
  | none => []
  | some d => d.lines.map .documentation

end Schema

open Schema

def Column.pieces (c : Column) : List Piece :=
  documentationPieces c.documentation ++
    (.name c.name.text :: .type c.type c.optional :: targetPieces c.mappedName)

def Model.pieces (m : Model) : List Piece :=
  documentationPieces m.documentation ++
    (.model :: .name m.name.text :: (targetPieces m.mappedTable ++
      (.bodyStart :: (m.columns.flatMap Column.pieces ++ [.bodyEnd]))))

namespace Schema

def pieces (s : Schema) : List Piece := s.models.flatMap Model.pieces

/-- A text that the schema may be written as. -/
def IsLayout (s : Schema) (text : List Char) : Prop :=
  ∃ g t, Filler g ∧ Laid s.pieces t ∧ text = g ++ t

/-- The schema with each piece on a line of its own. -/
def print (s : Schema) : String := String.ofList (s.pieces.flatMap fun p => p.text ++ ['\n'])

theorem laid_lines (ps : List Piece) : Laid ps (ps.flatMap fun p => p.text ++ ['\n']) := by
  induction ps with
  | nil => exact .nil
  | cons p ps ih =>
      have hg : Divides p ps ['\n'] := ⟨.space rfl .nil, fun _ _ => rfl, fun _ _ => by simp⟩
      rw [List.flatMap_cons, List.append_assoc]
      exact .cons hg ih

theorem isLayout_print (s : Schema) : s.IsLayout s.print.toList :=
  ⟨[], _, .nil, laid_lines s.pieces, by rw [print, String.toList_ofList, List.nil_append]⟩

theorem Filler.gap {g : List Char} (h : Filler g) (s : List Char) : Form.Gap (g ++ s) s := by
  induction h with
  | nil => exact .done s
  | space hc _ ih => exact .space hc ih
  | @comment t c g ht hm hc _ ih =>
      have hg : Form.Gap (c :: (g ++ s)) s := .space (isSpace_of_isNewline hc) ih
      have hs : stops (fun x => !isNewline x) (c :: (g ++ s)) = true := by simp [stops, hc]
      simpa using Form.Gap.comment ht hm hs hg

theorem isNamePart_of_filler {c : Char} {g : List Char} (h : Filler (c :: g)) : isNamePart c = false := by
  cases h with
  | comment => rfl
  | space hc =>
      simp only [isSpace, Bool.or_eq_true, decide_eq_true_eq] at hc
      rcases hc with ((rfl | rfl) | rfl) | rfl <;> rfl

/-- No name goes on over the gap behind it. -/
theorem Divides.stops_name {p : Piece} {ps : List Piece} {g s : List Char} (hg : Divides p ps g)
    (hp : p.endsInName = true) (h : Laid ps s) : stops isNamePart (g ++ s) = true := by
  cases g with
  | cons c g =>
      have hc := isNamePart_of_filler hg.filler
      simp [stops, hc]
  | nil =>
      cases h with
      | nil => rfl
      | @cons q ps g s =>
          have hq : q.beginsWithName = false := by
            rw [Bool.eq_false_iff]
            exact fun hq => hg.apart hp hq rfl
          cases q with
          | model | name | type => cases hq
          | documentation | mapStart | target | mapEnd | bodyStart | bodyEnd => rfl

theorem Divides.stops_line {l : List Char} {ps : List Piece} {g s : List Char}
    (hg : Divides (.documentation l) ps g) : stops (fun c => !isNewline c) (g ++ s) = true := by
  have hn := hg.newline l rfl
  cases g with
  | nil => cases hn
  | cons c g =>
      have hc : isNewline c = true := hn
      simp [stops, hc]

namespace Form

variable {α β : Type} {f : Form α} {a : α} {ps qs : List Piece}

/-- In every layout of the pieces, whatever pieces follow, the value stands as the form has it. -/
def Writes (f : Form α) (a : α) (ps : List Piece) : Prop :=
  ∀ qs s, Laid (ps ++ qs) s → ∃ t u, f s a t ∧ Gap t u ∧ Laid qs u

theorem Writes.bind_pure (h : f.Writes a ps) (k : α → β) : (f >>= fun x => pure (k x)).Writes (k a) ps := by
  intro qs s hs
  obtain ⟨t, u, ht, hu, hqs⟩ := h qs s hs
  exact ⟨t, u, ⟨a, t, ht, rfl, rfl⟩, hu, hqs⟩

theorem Writes.bind_gap {g : α → Form β} {b : β} (hf : f.Writes a ps) (hg : (g a).Writes b qs) :
    (f >>= fun x => gap >>= fun _ => g x).Writes b (ps ++ qs) := by
  intro rs s hs
  rw [List.append_assoc] at hs
  obtain ⟨t, u, ht, hu, hs⟩ := hf (qs ++ rs) s hs
  obtain ⟨v, w, hv, hw, hrs⟩ := hg rs u hs
  exact ⟨v, w, ⟨a, t, ht, (), u, hu, hv⟩, hw, hrs⟩

theorem writes_none : (optional f).Writes none [] := fun _ s hs => ⟨s, s, rfl, .done s, hs⟩

theorem Writes.some (h : f.Writes a ps) : (optional f).Writes (some a) ps := h

theorem writes_many_nil : (many f).Writes [] [] := fun _ s hs => ⟨s, s, .inl ⟨rfl, rfl⟩, .done s, hs⟩

variable {ι : Type} {value : ι → α} {piecesOf : ι → List Piece} {xs : List ι}

theorem writes_many1 (hne : xs ≠ []) (h : ∀ x ∈ xs, f.Writes (value x) (piecesOf x)) :
    (many1 f).Writes (xs.map value) (xs.flatMap piecesOf) := by
  induction xs with
  | nil => contradiction
  | cons x xs ih =>
      intro qs s hs
      obtain ⟨hx, hxs⟩ := List.forall_mem_cons.1 h
      rw [List.flatMap_cons, List.append_assoc] at hs
      obtain ⟨t, u, ht, hu, hs⟩ := hx _ s hs
      cases xs with
      | nil => exact ⟨t, u, .last ht, hu, hs⟩
      | cons y xs =>
          obtain ⟨v, w, hv, hw, hqs⟩ := ih (by simp) hxs qs u hs
          exact ⟨v, w, .cons ht hu hv, hw, hqs⟩

theorem writes_many (h : ∀ x ∈ xs, f.Writes (value x) (piecesOf x)) :
    (many f).Writes (xs.map value) (xs.flatMap piecesOf) := by
  cases xs with
  | nil => exact writes_many_nil
  | cons x xs =>
      intro qs s hs
      obtain ⟨t, u, ht, hu, hqs⟩ := writes_many1 (by simp) h qs s hs
      exact ⟨t, u, .inr ht, hu, hqs⟩

theorem writes_literal (p : Piece) : (literal p.text).Writes () [p] := by
  intro qs s hs
  cases hs with
  | @cons p ps g s hg h => exact ⟨g ++ s, s, rfl, hg.filler.gap s, h⟩

theorem name_append {s r : List Char} (hs : isName s = true) (hr : stops isNamePart r = true) :
    name (s ++ r) (String.ofList s) r := by
  cases s with
  | nil => cases hs
  | cons c s =>
      obtain ⟨hc, hs⟩ := Bool.and_eq_true_iff.1 hs
      exact ⟨c, s ++ r, ⟨rfl, hc⟩, s, r, ⟨rfl, List.all_eq_true.1 hs, hr⟩, rfl, rfl⟩

theorem writes_name {s : String} (hs : isName s.toList = true) : name.Writes s [.name s] := by
  intro qs t ht
  cases ht with
  | @cons p ps g t hg h =>
      have hn := name_append hs (hg.stops_name rfl h)
      rw [String.ofList_toList] at hn
      exact ⟨g ++ t, t, hn, hg.filler.gap t, h⟩

theorem isName_typeName (t : ValueType) : isName t.name.toList = true := by
  cases t <;> decide

theorem writes_columnType (t : ValueType) (o : Bool) : columnType.Writes (t.name, o) [.type t o] := by
  intro qs s hs
  cases hs with
  | @cons p ps g s hg h =>
      refine ⟨g ++ s, s, ?_, hg.filler.gap s, h⟩
      cases o with
      | true =>
          have hn := name_append (r := '?' :: (g ++ s)) (isName_typeName t) rfl
          rw [String.ofList_toList] at hn
          exact ⟨t.name, '?' :: (g ++ s), by simpa [Piece.text] using hn, some (), g ++ s, rfl, rfl, rfl⟩
      | false =>
          have hn := name_append (isName_typeName t) (hg.stops_name rfl h)
          rw [String.ofList_toList] at hn
          exact ⟨t.name, g ++ s, by simpa [Piece.text] using hn, none, g ++ s, rfl, rfl, rfl⟩

theorem stringLiteral_append {t : String} (ht : IsTarget t) (r : List Char) :
    stringLiteral ((Piece.target t).text ++ r) t r := by
  refine ⟨(), t.toList ++ '"' :: r, by simp [literal, Piece.text], t.toList, '"' :: r, ⟨rfl, ?_, rfl⟩, (), r,
    rfl, (String.ofList_toList).symm, rfl⟩
  intro c hc
  simpa using ht.2 c hc

theorem writes_mark {t : String} (ht : IsTarget t) :
    mark.Writes { name := "map", argument := some t } [.mapStart, .target t, .mapEnd] := by
  intro qs s hs
  cases hs with
  | @cons _ _ g s hg hs =>
      cases hs with
      | @cons _ _ g' s' hg' hs =>
          cases hs with
          | @cons _ _ g'' s hg'' hs =>
              have hn : name (['m', 'a', 'p'] ++ '(' :: (g ++ ((Piece.target t).text ++
                  (g' ++ (')' :: (g'' ++ s)))))) "map" _ := name_append rfl rfl
              refine ⟨g'' ++ s, s, ?_, hg''.filler.gap s, hs⟩
              refine ⟨(), _, rfl, "map", _, hn, some t, g'' ++ s, ?_, rfl, rfl⟩
              exact ⟨(), _, rfl, (), _, hg.filler.gap _, t, _, stringLiteral_append ht _, (), _,
                hg'.filler.gap _, (), _, rfl, rfl, rfl⟩

theorem writes_marks {x : Option String} (hx : ∀ t ∈ x, IsTarget t) :
    (many mark).Writes (x.toList.map fun t => { name := "map", argument := some t }) (targetPieces x) := by
  cases x with
  | none => exact writes_many_nil
  | some t =>
      have hw : ∀ u ∈ [t], mark.Writes _ [.mapStart, .target u, .mapEnd] :=
        List.forall_mem_singleton.2 (writes_mark (hx t rfl))
      exact writes_many hw

theorem writes_documentationLine {l : List Char} (hl : IsLine l) :
    documentationLine.Writes (' ' :: l) [.documentation l] := by
  intro qs s hs
  cases hs with
  | @cons p ps g s hg h =>
      have hb : ∀ c ∈ ' ' :: l, (!isNewline c) = true := by simpa [isNewline] using hl.1
      exact ⟨g ++ s, s, ⟨(), _, rfl, rfl, hb, hg.stops_line⟩, hg.filler.gap s, h⟩

theorem documentationText_lines {d : Documentation} (hd : d.IsPrintable) :
    documentationText (d.lines.map fun l => ' ' :: l) = d.text := by
  have hl : d.lines.map ((fun s => Text.trim (stripMarks s)) ∘ fun l => ' ' :: l) = d.lines := by
    refine List.map_congr_left (fun l hl => ?_) |>.trans (List.map_id _)
    exact (hd l hl).2
  rw [documentationText, List.map_map, hl, Documentation.lines, List.intercalate_splitOn, String.ofList_toList]

theorem writes_documentation {x : Option Documentation} (hx : ∀ d ∈ x, d.IsPrintable) :
    (optional documentation).Writes (x.map Documentation.bare) (documentationPieces x) := by
  cases x with
  | none => exact writes_none
  | some d =>
      have hd := hx d rfl
      have hl : ∀ l ∈ d.lines, documentationLine.Writes (' ' :: l) [.documentation l] :=
        fun l hl => writes_documentationLine (hd l hl)
      have hw := writes_many1 (List.splitOn_ne_nil '\n' d.text.toList) hl
      have hb := hw.bind_pure fun lines => ({ text := documentationText lines } : Documentation)
      rw [← Documentation.lines, documentationText_lines hd, ← List.map_eq_flatMap] at hb
      exact hb.some

end Form

end Schema

/-! The declarations of what has been built -/

def Column.declaration (c : Column) : ColumnDeclaration where
  documentation := c.documentation.map Documentation.bare
  name := c.name.bare
  type := c.type.name
  optional := c.optional
  marks := c.mappedName.toList.map fun t => { name := "map", argument := some t }
  span := {}

def Model.declaration (m : Model) : ModelDeclaration where
  documentation := m.documentation.map Documentation.bare
  name := m.name.bare
  marks := m.mappedTable.toList.map fun t => { name := "map", argument := some t }
  columns := m.columns.map Column.declaration
  span := {}

namespace Schema

theorem mapping_target {x : Option String} (hx : ∀ t ∈ x, IsTarget t) :
    mapping (x.toList.map fun t => { name := "map", argument := some t }) = .ok x := by
  cases x with
  | none => rfl
  | some t =>
      have ht : Mark.target { name := "map", argument := some t } = .ok t :=
        Mark.target_eq_ok.2 ⟨List.mem_singleton_self _, rfl, (hx t rfl).1⟩
      rw [Option.toList_some, List.map_cons, mapping, ht]
      rfl

namespace Form

theorem writes_column {c : Column} (hc : c.IsPrintable) : column.Writes c.declaration c.pieces := by
  refine (writes_documentation hc.documented).bind_gap ?_
  refine Writes.bind_gap (writes_name hc.name) ?_
  refine Writes.bind_gap (writes_columnType c.type c.optional) ?_
  exact (writes_marks hc.mapped).bind_pure fun marks => _

theorem writes_model {m : Model} (hm : m.IsPrintable) : model.Writes m.declaration m.pieces := by
  refine (writes_documentation hm.documented).bind_gap ?_
  refine Writes.bind_gap (writes_literal .model) ?_
  refine Writes.bind_gap (writes_name hm.name) ?_
  refine Writes.bind_gap (writes_marks hm.mapped) ?_
  refine Writes.bind_gap (writes_literal .bodyStart) ?_
  refine Writes.bind_gap (writes_many fun c hc => writes_column (hm.columns c hc)) ?_
  exact (writes_literal .bodyEnd).bind_pure fun _ => _

/-- Every layout is derived in the grammar. -/
theorem schema_of_isLayout {s : Schema} (hs : s.IsPrintable) {text : List Char} (h : s.IsLayout text) :
    schema text (s.models.map Model.declaration) [] := by
  obtain ⟨g, t, hg, ht, rfl⟩ := h
  have hw := writes_many fun m hm => writes_model (hs.models m hm)
  rw [pieces, ← List.append_nil (s.models.flatMap _)] at ht
  obtain ⟨u, v, hu, hv, hl⟩ := hw [] t ht
  cases hl
  exact ⟨(), t, hg.gap t, _, u, hu, (), [], hv, (), [], ⟨rfl, rfl⟩, rfl, rfl⟩

end Form

end Schema

theorem Column.ofDeclaration_declaration {c : Column} (hc : c.IsPrintable) (model : String) :
    ofDeclaration model c.declaration = .ok c.bare :=
  ofDeclaration_eq_ok.2 ⟨c.type, c.mappedName, ValueType.ofName?_name c.type, mapping_target hc.mapped, rfl⟩

theorem Model.ofDeclaration_declaration {m : Model} (hm : m.IsPrintable) :
    ofDeclaration m.declaration = .ok m.bare := by
  refine ofDeclaration_eq_ok.2 ⟨m.mappedTable, m.columns.map Column.bare, mapping_target hm.mapped, ?_, ?_, rfl⟩
  · rw [declaration, List.forall₂_map_left_iff, List.forall₂_map_right_iff, List.forall₂_same]
    exact fun c hc => Column.ofDeclaration_declaration (hm.columns c hc) _
  · rw [List.map_map]
    exact hm.distinct

namespace Schema

theorem addDeclarations_declaration {s : Schema} (hs : s.IsPrintable) :
    addDeclarations {} (s.models.map Model.declaration) = .ok s.bare := by
  refine addDeclarations_eq_ok.2 ⟨s.models.map Model.bare, ?_, ?_, rfl⟩
  · rw [List.forall₂_map_left_iff, List.forall₂_map_right_iff, List.forall₂_same]
    exact fun m hm => Model.ofDeclaration_declaration (hs.models m hm)
  · rw [Keyed.fresh_nil_left, List.map_map]
    exact hs.distinct

theorem parse_of_isLayout {s : Schema} (hs : s.IsPrintable) {text : String} (h : s.IsLayout text.toList) :
    (parse text).map bare = .ok s.bare := by
  obtain ⟨ds, hd, hb⟩ := declarations_iff.2 (Form.schema_of_isLayout hs h)
  have ha := addDeclarations_bare {} ds
  rw [hb] at ha
  rw [parse, hd]
  exact ha.trans (addDeclarations_declaration hs)

/-- A schema is read from every text it may be written as, and all that is read may be written again. -/
theorem parse_layout :
    (∀ s : Schema, s.IsPrintable → ∀ text : String, s.IsLayout text.toList →
      (parse text).map bare = .ok s.bare) ∧
    ∀ source s, parse source = .ok s →
      s.IsPrintable ∧ s.IsLayout s.print.toList ∧ (parse s.print).map bare = .ok s.bare := by
  refine ⟨fun s hs text h => parse_of_isLayout hs h, fun source s h => ?_⟩
  have hs := isPrintable_of_parse h
  exact ⟨hs, s.isLayout_print, parse_of_isLayout hs s.isLayout_print⟩

theorem parse_layout_comment :
    (parse "/// Kept.\r\nmodel// not kept\nA @map( \"a b\")\x7bx Int?\x7d").map bare =
      .ok ⟨[{ name := { text := "A" }, mappedTable := some "a b", documentation := some { text := "Kept." },
              columns := [{ name := { text := "x" }, type := .int, optional := true }] }]⟩ := by
  have hl (l : List Char) (h : (l.all fun c => c ≠ '"' && !isNewline c) = true) :
      ∀ c ∈ l, c ≠ '"' ∧ isNewline c = false := by simpa using h
  have hs : IsPrintable
      ⟨[{ name := { text := "A" }, mappedTable := some "a b", documentation := some { text := "Kept." },
          columns := [{ name := { text := "x" }, type := .int, optional := true }] }]⟩ := by
    refine ⟨List.forall_mem_singleton.2 ⟨rfl, ?_, ?_, List.forall_mem_singleton.2 ⟨rfl, ?_, ?_⟩, ?_⟩, ?_⟩
    · rintro _ ⟨⟩
      exact ⟨by decide, hl _ rfl⟩
    · rintro _ ⟨⟩
      exact List.forall_mem_singleton.2 ⟨fun c hc => (hl _ rfl c hc).2, by decide⟩
    · rintro _ ⟨⟩
    · rintro _ ⟨⟩
    · decide
    · decide
  have hc : Filler "// not kept\n".toList :=
    .comment (t := " not kept".toList) (fun c hc => (hl _ rfl c hc).2) (by decide) rfl .nil
  have hb : Filler [' '] := .space rfl .nil
  have hn (p : Piece) (ps : List Piece) (h : p.endsInName = false) (hd : ∀ l, p ≠ .documentation l) :
      Divides p ps [] := ⟨.nil, fun l hl => absurd hl (hd l), by simp [h]⟩
  refine parse_layout.1 _ hs _ ⟨[], _, .nil, ?_, rfl⟩
  refine .cons (g := ['\r', '\n']) ⟨.space rfl (.space rfl .nil), fun _ _ => rfl, by simp⟩ ?_
  refine .cons (g := "// not kept\n".toList) ⟨hc, by simp, by simp⟩ ?_
  refine .cons (g := [' ']) ⟨hb, by simp, by simp⟩ ?_
  refine .cons (g := [' ']) ⟨hb, by simp, by simp⟩ ?_
  refine .cons (hn _ _ rfl (by simp)) (.cons (hn _ _ rfl (by simp)) (.cons (hn _ _ rfl (by simp)) ?_))
  refine .cons (g := [' ']) ⟨hb, by simp, by simp⟩ ?_
  exact .cons (hn _ _ rfl (by simp)) (.cons (hn _ _ rfl (by simp)) .nil)

end Schema

end PredicateSearch
