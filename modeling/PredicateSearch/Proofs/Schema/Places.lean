import PredicateSearch.Proofs.Schema.Building
import PredicateSearch.Proofs.Schema.Cursor

namespace PredicateSearch

namespace Span

/-- Both ends lie in the text, the end behind the start, and no character is cut. -/
structure IsIn (x : Span) (text : String) : Prop where
  ordered : x.start ≤ x.stop
  bounded : x.stop ≤ text.utf8ByteSize
  start_isValid : (⟨x.start⟩ : String.Pos.Raw).IsValid text
  stop_isValid : (⟨x.stop⟩ : String.Pos.Raw).IsValid text

/-- What the text has at the span. -/
def Holds (x : Span) (text s : String) : Prop :=
  ∃ before after, text = before ++ s ++ after ∧ x.start = before.utf8ByteSize ∧
    x.stop = (before ++ s).utf8ByteSize

def Within (x y : Span) : Prop := y.start ≤ x.start ∧ x.stop ≤ y.stop

theorem Holds.isIn {x : Span} {text s : String} (h : x.Holds text s) : x.IsIn text := by
  obtain ⟨before, after, rfl, hstart, hstop⟩ := h
  have hb := String.utf8ByteSize_append (s := before) (t := s)
  have ha := String.utf8ByteSize_append (s := before ++ s) (t := after)
  refine ⟨by omega, by omega, ?_, ?_⟩
  · exact String.Pos.Raw.isValid_iff_exists_append.2 ⟨before, s ++ after, String.append_assoc, congrArg _ hstart⟩
  · exact String.Pos.Raw.isValid_iff_exists_append.2 ⟨before ++ s, after, rfl, congrArg _ hstop⟩

theorem IsIn.start_add_length {x : Span} {text : String} (h : x.IsIn text) : x.start + x.length = x.stop :=
  Nat.add_sub_cancel' h.ordered

end Span

/-- Where a column or a model stands, with its name and its documentation. -/
structure Place where
  name : Ident
  documentation : Option Documentation
  span : Span

def Column.place (c : Column) : Place := ⟨c.name, c.documentation, c.span⟩

def Model.place (m : Model) : Place := ⟨m.name, m.documentation, m.span⟩

namespace Place

def spans (p : Place) : List Span := p.span :: p.name.span :: p.documentation.toList.map Documentation.span

theorem isIn_of_mem_spans {p : Place} {text : String} (hp : p.span.IsIn text) (hn : p.name.span.IsIn text)
    (hd : ∀ d ∈ p.documentation, d.span.IsIn text) : ∀ x ∈ p.spans, x.IsIn text := by
  refine List.forall_mem_cons.2 ⟨hp, List.forall_mem_cons.2 ⟨hn, fun x hx => ?_⟩⟩
  obtain ⟨d, hm, rfl⟩ := List.mem_map.1 hx
  exact hd d (Option.mem_toList.1 hm)

/-- A column takes in its documentation, which stands before the name. -/
structure IsColumn (p : Place) (text : String) : Prop where
  isIn : p.span.IsIn text
  name : p.name.span.Holds text p.name.text
  name_within : p.name.span.Within p.span
  documented : ∀ d ∈ p.documentation,
    d.span.IsIn text ∧ d.span.Within p.span ∧ d.span.stop ≤ p.name.span.start

/-- A model takes in its columns, but its documentation stands before it. -/
structure IsModel (p : Place) (columns : List Place) (text : String) : Prop where
  written : ∃ s, p.span.Holds text ("model" ++ s ++ "\x7d")
  name : p.name.span.Holds text p.name.text
  name_within : p.name.span.Within p.span
  documented : ∀ d ∈ p.documentation, d.span.IsIn text ∧ d.span.stop ≤ p.span.start
  ordered : columns.Pairwise fun c d => c.span.stop ≤ d.span.start
  columns : ∀ c ∈ columns, c.IsColumn text ∧ c.span.Within p.span

theorem IsColumn.isIn_of_mem_spans {p : Place} {text : String} (h : p.IsColumn text) :
    ∀ x ∈ p.spans, x.IsIn text :=
  Place.isIn_of_mem_spans h.isIn h.name.isIn fun d hd => (h.documented d hd).1

theorem IsModel.isIn {p : Place} {columns : List Place} {text : String} (h : p.IsModel columns text) :
    p.span.IsIn text := by
  obtain ⟨s, hs⟩ := h.written
  exact hs.isIn

theorem IsModel.isIn_of_mem_spans {p : Place} {columns : List Place} {text : String} (h : p.IsModel columns text) :
    ∀ x ∈ p.spans, x.IsIn text :=
  Place.isIn_of_mem_spans h.isIn h.name.isIn fun d hd => (h.documented d hd).1

/-- All of the second model, its documentation too, stands behind the first. -/
def Precedes (p q : Place) : Prop := p.span.stop ≤ q.span.start ∧ ∀ d ∈ q.documentation, p.span.stop ≤ d.span.start

end Place

namespace Schema

/-- All places in a text that are kept with what is read from it. -/
def spans (s : Schema) : List Span :=
  s.models.flatMap fun m => m.place.spans ++ m.columns.flatMap fun c => c.place.spans

def ColumnDeclaration.place (d : ColumnDeclaration) : Place := ⟨d.name, d.documentation, d.span⟩

def ModelDeclaration.place (d : ModelDeclaration) : Place := ⟨d.name, d.documentation, d.span⟩

/-- The cursor stands in the text where it says. -/
def Cursor.IsAt (c : Cursor) (text : String) : Prop := ∃ p, (⟨text.toList, 0⟩ : Cursor).Passes p c

theorem Cursor.IsAt.passes {c d : Cursor} {text : String} {q : List Char} (hc : c.IsAt text) (h : c.Passes q d) :
    d.IsAt text := by
  obtain ⟨p, hp⟩ := hc
  exact ⟨p ++ q, hp.trans h⟩

theorem Cursor.IsAt.holds {c d : Cursor} {text : String} {q : List Char} (hc : c.IsAt text) (h : c.Passes q d) :
    (⟨c.offset, d.offset⟩ : Span).Holds text (String.ofList q) := by
  obtain ⟨p, hp⟩ := hc
  have hpq := hp.trans h
  refine ⟨String.ofList p, String.ofList d.rest, ?_, ?_, ?_⟩
  · apply String.toList_injective
    simpa [List.append_assoc] using hpq.rest
  · rw [← byteLength_toList, String.toList_ofList]
    simpa using hp.offset
  · rw [← byteLength_toList, String.toList_append, String.toList_ofList, String.toList_ofList]
    simpa using hpq.offset

/-- One behind the other, from the first offset to the second, each where `P` says. -/
inductive InOrder {α : Type} (P : α → Nat → Nat → Prop) : Nat → List α → Nat → Prop
  | nil {lo hi} (h : lo ≤ hi) : InOrder P lo [] hi
  | cons {lo m n hi a as} (hl : lo ≤ m) (ha : P a m n) (h : InOrder P n as hi) : InOrder P lo (a :: as) hi

namespace InOrder

variable {α : Type} {P : α → Nat → Nat → Prop} {as : List α} {lo hi : Nat}

theorem bounded (hP : ∀ a m n, P a m n → m ≤ n) (h : InOrder P lo as hi) :
    lo ≤ hi ∧ ∀ a ∈ as, ∃ m n, lo ≤ m ∧ P a m n ∧ n ≤ hi := by
  induction h with
  | nil h => exact ⟨h, by simp⟩
  | cons hl ha _ ih =>
      obtain ⟨hle, hm⟩ := ih
      have hmn := hP _ _ _ ha
      refine ⟨by omega, List.forall_mem_cons.2 ⟨⟨_, _, hl, ha, hle⟩, fun b hb => ?_⟩⟩
      obtain ⟨m', n', hl', hb, hn'⟩ := hm b hb
      exact ⟨m', n', by omega, hb, hn'⟩

theorem pairwise {R : α → α → Prop} (hP : ∀ a m n, P a m n → m ≤ n)
    (hR : ∀ a b m n m' n', P a m n → P b m' n' → n ≤ m' → R a b) (h : InOrder P lo as hi) : as.Pairwise R := by
  induction h with
  | nil h => exact .nil
  | cons _ ha h ih =>
      refine .cons (fun b hb => ?_) ih
      obtain ⟨m', n', hl, hb, -⟩ := (h.bounded hP).2 b hb
      exact hR _ _ _ _ _ _ ha hb hl

end InOrder

namespace Rule

variable {α : Type} {text : String}

theorem span_documentation {c d : Cursor} {x : Documentation}
    (h : (documentation c).reading = some (x, d)) : x.span = ⟨c.offset, d.offset⟩ := by
  obtain ⟨y, e, hy, hx⟩ := reading_bind_eq_some.1 h
  obtain ⟨-, hs⟩ := reading_spanned_eq_some.1 hy
  cases hx
  exact hs

theorem place_ident {c d : Cursor} {x : Ident} (h : (ident c).reading = some (x, d)) :
    c.Passes x.text.toList d ∧ x.span = ⟨c.offset, d.offset⟩ := by
  obtain ⟨p, hp⟩ := advances_ident c x d h
  obtain ⟨b, t, ⟨hc, -⟩, s, u, ⟨rfl, -, -⟩, ht, rfl⟩ := reads_ident c x d h
  obtain ⟨y, e, hy, hx⟩ := reading_bind_eq_some.1 h
  obtain ⟨-, hs⟩ := reading_spanned_eq_some.1 hy
  cases hx
  rw [ht, String.toList_ofList]
  have he : p = b :: s := hp.eq hc
  exact ⟨he ▸ hp, hs⟩

theorem place_documented {c d : Cursor} {x : Option Documentation} (hc : c.IsAt text)
    (h : (optional documentation c).reading = some (x, d)) :
    ∀ y ∈ x, y.span.IsIn text ∧ c.offset ≤ y.span.start ∧ y.span.stop ≤ d.offset := by
  obtain ⟨p, hp⟩ := advances_documentation.optional c x d h
  rcases reading_optional_eq_some h with ⟨rfl, -⟩ | ⟨y, rfl, hy⟩
  · simp
  · rintro _ ⟨⟩
    rw [span_documentation hy]
    exact ⟨(hc.holds hp).isIn, Nat.le_refl _, Nat.le_refl _⟩

/-- A name that is read on the way stands where its span says. -/
theorem place_name {c c₁ c₂ d : Cursor} {p q : List Char} {x : Ident} (hc : c.IsAt text) (hp : c.Passes p c₁)
    (h : (ident c₁).reading = some (x, c₂)) (hq : c₂.Passes q d) :
    x.span.Holds text x.text ∧ x.span.Within ⟨c.offset, d.offset⟩ := by
  obtain ⟨hx, hs⟩ := place_ident h
  have hname := (hc.passes hp).holds hx
  rw [String.ofList_toList] at hname
  rw [hs]
  exact ⟨hname, hp.le, hq.le⟩

theorem place_column {c d : Cursor} {x : ColumnDeclaration} (hc : c.IsAt text)
    (h : (column c).reading = some (x, d)) :
    x.place.IsColumn text ∧ x.span = ⟨c.offset, d.offset⟩ ∧ c.offset ≤ d.offset := by
  obtain ⟨p, hp⟩ := advances_column c x d h
  obtain ⟨⟨make, span⟩, e, hy, hx⟩ := reading_bind_eq_some.1 h
  obtain ⟨hm, rfl⟩ := reading_spanned_eq_some.1 hy
  rw [columnBody, reading_counted] at hm
  obtain ⟨documentation, c₁, p₁, hd, h₁, hm⟩ := advances_documentation.optional.split hm
  obtain ⟨⟨⟩, c₂, p₂, -, h₂, hm⟩ := Advances.gap.split hm
  obtain ⟨name, c₃, p₃, hn, h₃, hm⟩ := advances_ident.split hm
  obtain ⟨⟨⟩, c₄, p₄, -, h₄, hm⟩ := Advances.gap.split hm
  obtain ⟨type, c₅, p₅, -, h₅, hm⟩ := advances_columnType.split hm
  obtain ⟨⟨⟩, c₆, p₆, -, h₆, hm⟩ := Advances.gap.split hm
  obtain ⟨marks, c₇, p₇, -, h₇, hm⟩ := advances_mark.many.split hm
  cases hm
  cases hx
  have tail := ((h₄.trans h₅).trans h₆).trans h₇
  obtain ⟨hname, hwithin⟩ := place_name hc (h₁.trans h₂) hn tail
  refine ⟨⟨(hc.holds hp).isIn, hname, hwithin, ?_⟩, rfl, hp.le⟩
  intro y hy
  obtain ⟨hin, hstart, hstop⟩ := place_documented hc hd y hy
  have hrest := (h₂.trans (h₃.trans tail)).le
  refine ⟨hin, ⟨hstart, Nat.le_trans hstop hrest⟩, ?_⟩
  change y.span.stop ≤ name.span.start
  rw [(place_ident hn).2]
  exact Nat.le_trans hstop h₂.le

section

variable {r : Rule α} {P : α → Nat → Nat → Prop} {c d : Cursor} {as : List α}

theorem inOrder_repeated (hr : Advances r)
    (hP : ∀ c a d, c.IsAt text → (r c).reading = some (a, d) → P a c.offset d.offset) (hc : c.IsAt text)
    (h : Repeated r c as d) : InOrder P c.offset as d.offset := by
  induction h with
  | nil c => exact .nil (Nat.le_refl _)
  | @cons c u d a as ha _ ih =>
      obtain ⟨p, hp⟩ := passes_skip false c.offset c.rest
      obtain ⟨q, hq⟩ := hr _ a u ha
      have hs := hc.passes hp
      exact .cons hp.le (hP _ a u hs ha) (ih (hs.passes hq))

theorem inOrder_many (hr : Advances r)
    (hP : ∀ c a d, c.IsAt text → (r c).reading = some (a, d) → P a c.offset d.offset) (hc : c.IsAt text)
    (h : (many r c).reading = some (as, d)) : InOrder P c.offset as d.offset := by
  rcases repeated_of_many h with ⟨rfl, rfl⟩ | ⟨a, u, bs, rfl, ha, hs⟩
  · exact .nil (Nat.le_refl _)
  · obtain ⟨p, hp⟩ := hr c a u ha
    exact .cons (Nat.le_refl _) (hP c a u hc ha) (inOrder_repeated hr hP (hc.passes hp) hs)

end

/-- Between the offsets the text has the column, and nothing else. -/
def ColumnBetween (text : String) (x : ColumnDeclaration) (lo hi : Nat) : Prop :=
  x.place.IsColumn text ∧ x.span = ⟨lo, hi⟩ ∧ lo ≤ hi

/-- Between the offsets the text has the model and its documentation. -/
def ModelBetween (text : String) (x : ModelDeclaration) (lo hi : Nat) : Prop :=
  x.place.IsModel (x.columns.map ColumnDeclaration.place) text ∧ lo ≤ x.span.start ∧ x.span.stop = hi ∧
    ∀ y ∈ x.documentation, lo ≤ y.span.start

theorem place_columns {c d : Cursor} {xs : List ColumnDeclaration} (hc : c.IsAt text)
    (h : (many column c).reading = some (xs, d)) :
    (∀ x ∈ xs, x.place.IsColumn text ∧ c.offset ≤ x.span.start ∧ x.span.stop ≤ d.offset) ∧
      xs.Pairwise fun x y => x.span.stop ≤ y.span.start := by
  have ho : InOrder (ColumnBetween text) c.offset xs d.offset :=
    inOrder_many advances_column (fun _ _ _ hc h => place_column hc h) hc h
  constructor
  · intro x hx
    obtain ⟨m, n, hm, ⟨hp, hs, -⟩, hn⟩ := (ho.bounded fun _ _ _ h => h.2.2).2 x hx
    rw [hs]
    exact ⟨hp, hm, hn⟩
  · refine ho.pairwise (fun _ _ _ h => h.2.2) ?_
    rintro x y m n m' n' ⟨-, hx, -⟩ ⟨-, hy, -⟩ hle
    rw [hx, hy]
    exact hle

theorem passes_literal {c d : Cursor} {l : List Char} {x : Unit} (h : (literal l c).reading = some (x, d)) :
    c.Passes l d := by
  obtain ⟨p, hp⟩ := Advances.literal l c x d h
  have hl : c.rest = l ++ d.rest := Reads.literal l c x d h
  exact hp.eq hl ▸ hp

theorem place_modelBody {c d : Cursor} {name : Ident} {marks : List Mark} {columns : List ColumnDeclaration}
    (hc : c.IsAt text) (h : (modelBody c).reading = some ((name, marks, columns), d)) :
    (⟨name, none, ⟨c.offset, d.offset⟩⟩ : Place).IsModel (columns.map ColumnDeclaration.place) text := by
  rw [modelBody, reading_counted] at h
  obtain ⟨⟨⟩, c₁, hl, h⟩ := reading_bind_eq_some.1 h
  obtain ⟨⟨⟩, c₂, p₂, -, h₂, h⟩ := Advances.gap.split h
  obtain ⟨name, c₃, p₃, hn, h₃, h⟩ := advances_ident.split h
  obtain ⟨⟨⟩, c₄, p₄, -, h₄, h⟩ := Advances.gap.split h
  obtain ⟨marks, c₅, p₅, -, h₅, h⟩ := advances_mark.many.split h
  obtain ⟨⟨⟩, c₆, p₆, -, h₆, h⟩ := Advances.gap.split h
  obtain ⟨⟨⟩, c₇, p₇, -, h₇, h⟩ := (Advances.literal _).split h
  obtain ⟨⟨⟩, c₈, p₈, -, h₈, h⟩ := Advances.gap.split h
  obtain ⟨columns, c₉, p₉, hs, h₉, h⟩ := advances_column.many.split h
  obtain ⟨⟨⟩, c₁₀, p₁₀, -, h₁₀, h⟩ := Advances.gap.split h
  obtain ⟨⟨⟩, c₁₁, he, h⟩ := reading_bind_eq_some.1 h
  cases h
  have h₁ := passes_literal hl
  have h₁₁ := passes_literal he
  -- The name stands behind the word, the columns behind the opening brace, and the closing one behind all.
  have middle := (((h₄.trans h₅).trans h₆).trans h₇).trans h₈
  have tail := (h₉.trans h₁₀).trans h₁₁
  have hcols := (h₁.trans h₂).trans (h₃.trans middle)
  obtain ⟨hname, hwithin⟩ := place_name hc (h₁.trans h₂) hn (middle.trans tail)
  obtain ⟨hcolumns, hordered⟩ := place_columns (hc.passes hcols) hs
  have hbody := hc.holds (h₁.trans ((h₂.trans ((h₃.trans middle).trans (h₉.trans h₁₀))).trans h₁₁))
  rw [String.ofList_append, String.ofList_append, ← String.append_assoc] at hbody
  refine ⟨⟨_, hbody⟩, hname, hwithin, by simp, List.pairwise_map.2 hordered, ?_⟩
  intro y hy
  obtain ⟨x, hx, rfl⟩ := List.mem_map.1 hy
  obtain ⟨hp, hstart, hstop⟩ := hcolumns x hx
  exact ⟨hp, Nat.le_trans hcols.le hstart, Nat.le_trans hstop (h₁₀.trans h₁₁).le⟩

theorem place_model {c d : Cursor} {x : ModelDeclaration} (hc : c.IsAt text)
    (h : (model c).reading = some (x, d)) : ModelBetween text x c.offset d.offset := by
  obtain ⟨documentation, c₁, p₁, hd, h₁, h⟩ := advances_documentation.optional.split h
  obtain ⟨⟨⟩, c₂, p₂, -, h₂, h⟩ := Advances.gap.split h
  obtain ⟨⟨⟨name, marks, columns⟩, span⟩, e, hm, hx⟩ := reading_bind_eq_some.1 h
  obtain ⟨hm, rfl⟩ := reading_spanned_eq_some.1 hm
  cases hx
  have hbody := place_modelBody (hc.passes (h₁.trans h₂)) hm
  have hdoc := place_documented hc hd
  refine ⟨⟨hbody.written, hbody.name, hbody.name_within, ?_, hbody.ordered, hbody.columns⟩,
    (h₁.trans h₂).le, rfl, fun y hy => (hdoc y hy).2.1⟩
  intro y hy
  obtain ⟨hin, -, hstop⟩ := hdoc y hy
  exact ⟨hin, Nat.le_trans hstop h₂.le⟩

theorem place_models {c d : Cursor} {xs : List ModelDeclaration} (hc : c.IsAt text)
    (h : (many model c).reading = some (xs, d)) :
    (∀ x ∈ xs, x.place.IsModel (x.columns.map ColumnDeclaration.place) text) ∧
      xs.Pairwise fun x y => x.place.Precedes y.place := by
  have hle : ∀ x m n, ModelBetween text x m n → m ≤ n := by
    rintro x m n ⟨hp, hm, rfl, -⟩
    exact Nat.le_trans hm hp.isIn.ordered
  have ho : InOrder (ModelBetween text) c.offset xs d.offset :=
    inOrder_many advances_model (fun _ _ _ hc h => place_model hc h) hc h
  constructor
  · intro x hx
    obtain ⟨m, n, -, ⟨hp, -⟩, -⟩ := (ho.bounded hle).2 x hx
    exact hp
  · refine ho.pairwise hle ?_
    rintro x y m n m' n' ⟨-, -, rfl, -⟩ ⟨-, hy, -, hd⟩ h
    exact ⟨Nat.le_trans h hy, fun z hz => Nat.le_trans h (hd z hz)⟩

end Rule

theorem place_declarations {text : String} {ds : List ModelDeclaration} (h : declarations text.toList = .ok ds) :
    (∀ d ∈ ds, d.place.IsModel (d.columns.map ColumnDeclaration.place) text) ∧
      ds.Pairwise fun d e => d.place.Precedes e.place := by
  obtain ⟨c, h⟩ := declarations_eq_ok.1 h
  obtain ⟨d, hm, -⟩ := Rule.reading_schema_eq_some.1 h
  exact Rule.place_models (passes_skip false 0 text.toList) hm

end Schema

/-! What is built stands where it is declared. -/

theorem Column.place_of_ofDeclaration {model : String} {d : Schema.ColumnDeclaration} {c : Column}
    (h : ofDeclaration model d = .ok c) : c.place = d.place := by
  obtain ⟨type, column, -, -, rfl⟩ := ofDeclaration_eq_ok.1 h
  rfl

theorem Model.place_of_ofDeclaration {d : Schema.ModelDeclaration} {m : Model} (h : ofDeclaration d = .ok m) :
    m.place = d.place ∧ m.columns.map Column.place = d.columns.map Schema.ColumnDeclaration.place := by
  obtain ⟨table, columns, -, hc, -, rfl⟩ := ofDeclaration_eq_ok.1 h
  exact ⟨rfl, map_eq_map_of_forall₂ hc fun _ _ => Column.place_of_ofDeclaration⟩

namespace Schema

/-- Every span of what is read from a text lies in the text, holds what it says it does, and stands in its place
among the others. -/
theorem parse_places {text : String} {s : Schema} (h : parse text = .ok s) :
    (∀ x ∈ s.spans, x.IsIn text ∧ x.start + x.length = x.stop) ∧
      (∀ m ∈ s.models, m.place.IsModel (m.columns.map Column.place) text) ∧
      s.models.Pairwise fun m n => m.place.Precedes n.place := by
  obtain ⟨ds, hd, hm, -⟩ := parse_eq_ok.1 h
  obtain ⟨hp, ho⟩ := place_declarations hd
  have hmodels : ∀ m ∈ s.models, m.place.IsModel (m.columns.map Column.place) text := by
    intro m h
    obtain ⟨d, hd, hdm⟩ := exists_of_forall₂ hm m h
    obtain ⟨hpm, hcm⟩ := Model.place_of_ofDeclaration hdm
    rw [hpm, hcm]
    exact hp d hd
  have hplaces : s.models.map Model.place = ds.map ModelDeclaration.place :=
    map_eq_map_of_forall₂ hm fun _ _ h => (Model.place_of_ofDeclaration h).1
  have hspans : ∀ x ∈ s.spans, x.IsIn text := by
    intro x hx
    obtain ⟨m, hm, hx⟩ := List.mem_flatMap.1 hx
    rcases List.mem_append.1 hx with hx | hx
    · exact (hmodels m hm).isIn_of_mem_spans x hx
    · obtain ⟨c, hc, hx⟩ := List.mem_flatMap.1 hx
      exact ((hmodels m hm).columns c.place (List.mem_map_of_mem hc)).1.isIn_of_mem_spans x hx
  refine ⟨fun x hx => ⟨hspans x hx, (hspans x hx).start_add_length⟩, hmodels, ?_⟩
  rw [← List.pairwise_map (f := Model.place) (R := Place.Precedes), hplaces, List.pairwise_map]
  exact ho

/-- Offsets count bytes, also behind a comment that is not all of single ones. -/
theorem parse_places_comment :
    ∃ s, parse "//\u00e9\nmodel A\x7bx Int\x7d" = .ok s ∧
      ∃ m ∈ s.models, m.name.span = ⟨11, 12⟩ ∧ m.name.span.Holds "//\u00e9\nmodel A\x7bx Int\x7d" "A" := by
  have h : parse "//\u00e9\nmodel A\x7bx Int\x7d" =
      .ok ⟨[⟨⟨"A", ⟨11, 12⟩⟩, [⟨⟨"x", ⟨13, 14⟩⟩, .int, false, none, none, ⟨13, 18⟩⟩], none, none, ⟨5, 19⟩⟩]⟩ := by
    rw [parse_eq]
    cbv
  have hm := (parse_places h).2.1 _ (List.mem_singleton_self _)
  exact ⟨_, h, _, List.mem_singleton_self _, rfl, hm.name⟩

end Schema

end PredicateSearch
