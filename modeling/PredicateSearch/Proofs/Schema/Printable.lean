import Mathlib.Data.List.DropRight
import PredicateSearch.Proofs.Schema.Building
import PredicateSearch.Proofs.Schema.Syntax

namespace PredicateSearch

namespace Text

theorem trim_trim (s : List Char) : trim (trim s) = trim s := by
  have hs : trimStart (trimEnd (trimStart s)) = trimEnd (trimStart s) := by
    obtain ⟨u, hu⟩ : trimEnd (trimStart s) <+: trimStart s := List.rdropWhile_prefix isBlank (trimStart s)
    cases ht : trimEnd (trimStart s) with
    | nil => rfl
    | cons c t =>
        -- The first character is that of the text with its end, and no blank.
        have hc := List.head?_dropWhile_not isBlank s
        rw [← trimStart, ← hu, ht] at hc
        have hb : isBlank c = false := by simpa using hc
        simp [trimStart, hb]
  rw [trim, trim, hs]
  exact List.rdropWhile_idempotent isBlank (trimStart s)

theorem mem_of_mem_trim {c : Char} {s : List Char} (h : c ∈ trim s) : c ∈ s :=
  (List.dropWhile_suffix isBlank).subset ((List.rdropWhile_prefix isBlank (trimStart s)).subset h)

end Text

open Text

namespace Schema

def isName : List Char → Bool
  | [] => false
  | c :: s => isNameStart c && s.all isNamePart

/-- What a name may be mapped to. -/
def IsTarget (s : String) : Prop := s ≠ "" ∧ ∀ c ∈ s.toList, c ≠ '"' ∧ isNewline c = false

/-- A line of a documentation as it is kept: on one line, and without blanks around it. -/
def IsLine (l : List Char) : Prop := (∀ c ∈ l, isNewline c = false) ∧ trim l = l

end Schema

def Documentation.lines (d : Documentation) : List (List Char) := d.text.toList.splitOn '\n'

def Documentation.IsPrintable (d : Documentation) : Prop := ∀ l ∈ d.lines, Schema.IsLine l

structure Column.IsPrintable (c : Column) : Prop where
  name : Schema.isName c.name.text.toList = true
  mapped : ∀ t ∈ c.mappedName, Schema.IsTarget t
  documented : ∀ d ∈ c.documentation, d.IsPrintable

structure Model.IsPrintable (m : Model) : Prop where
  name : Schema.isName m.name.text.toList = true
  mapped : ∀ t ∈ m.mappedTable, Schema.IsTarget t
  documented : ∀ d ∈ m.documentation, d.IsPrintable
  columns : ∀ c ∈ m.columns, c.IsPrintable
  distinct : (m.columns.map Column.key).Nodup

structure Schema.IsPrintable (s : Schema) : Prop where
  models : ∀ m ∈ s.models, m.IsPrintable
  distinct : (s.models.map Model.key).Nodup

namespace Schema

/-! What has been read in the grammar can be written in it. -/

def Mark.IsPrintable (a : Mark) : Prop := ∀ t ∈ a.argument, ∀ c ∈ t.toList, c ≠ '"' ∧ isNewline c = false

structure ColumnDeclaration.IsPrintable (d : ColumnDeclaration) : Prop where
  name : isName d.name.text.toList = true
  marks : ∀ a ∈ d.marks, a.IsPrintable
  documented : ∀ c ∈ d.documentation, c.IsPrintable

structure ModelDeclaration.IsPrintable (d : ModelDeclaration) : Prop where
  name : isName d.name.text.toList = true
  marks : ∀ a ∈ d.marks, a.IsPrintable
  documented : ∀ c ∈ d.documentation, c.IsPrintable
  columns : ∀ c ∈ d.columns, c.IsPrintable

theorem mem_stripMarks {c : Char} (s : List Char) (h : c ∈ stripMarks s) : c ∈ s := by
  fun_induction stripMarks s with
  | case1 s ih => simp [ih h]
  | case2 s => exact h

theorem isPrintable_documentationText {ls : List (List Char)} (hne : ls ≠ [])
    (hl : ∀ l ∈ ls, ∀ c ∈ l, isNewline c = false) :
    Documentation.IsPrintable { text := documentationText ls } := by
  have hm : ∀ l ∈ ls.map fun s => trim (stripMarks s), IsLine l := by
    intro l h
    obtain ⟨s, hs, rfl⟩ := List.mem_map.1 h
    exact ⟨fun c hc => hl s hs c (mem_stripMarks s (mem_of_mem_trim hc)), trim_trim _⟩
  have hn : ∀ l ∈ ls.map fun s => trim (stripMarks s), '\n' ∉ l := by
    intro l h hc
    have hf := (hm l h).1 '\n' hc
    cases hf
  intro l h
  rw [Documentation.lines, documentationText, String.toList_ofList,
    List.splitOn_intercalate _ hn (by simpa using hne)] at h
  exact hm l h

namespace Form

variable {α β : Type} {f : Form α} {g : α → Form β} {P : α → Prop} {Q : β → Prop}

/-- All values written in the form are such. -/
def Yields (f : Form α) (P : α → Prop) : Prop := ∀ s a t, f s a t → P a

theorem Yields.bind (hf : f.Yields P) (hg : ∀ a, P a → (g a).Yields Q) : (f >>= g).Yields Q := by
  rintro s b t ⟨a, u, ha, hb⟩
  exact hg a (hf s a u ha) u b t hb

/-- Of a part that is only passed over nothing is known. -/
theorem Yields.after (hg : ∀ a, (g a).Yields Q) : (f >>= g).Yields Q := by
  rintro s b t ⟨a, u, -, hb⟩
  exact hg a u b t hb

theorem Yields.pure {a : α} (h : P a) : Yields (Pure.pure a) P := by
  rintro s b t ⟨rfl, rfl⟩
  exact h

theorem Yields.optional (hf : f.Yields P) : (optional f).Yields (fun x => ∀ a ∈ x, P a) := by
  rintro s (_ | a) t h
  · simp
  · simpa using hf s a t h

theorem Yields.many1 (hf : f.Yields P) : (many1 f).Yields (fun as => as ≠ [] ∧ ∀ a ∈ as, P a) := by
  intro s as t h
  induction h with
  | last h => simpa using hf _ _ _ h
  | cons h _ _ ih => exact ⟨by simp, List.forall_mem_cons.2 ⟨hf _ _ _ h, ih.2⟩⟩

theorem Yields.many (hf : f.Yields P) : (many f).Yields (fun as => ∀ a ∈ as, P a) := by
  rintro s as t (⟨rfl, -⟩ | h)
  · simp
  · exact (hf.many1 s as t h).2

theorem yields_run (p : Char → Bool) : (run p).Yields (fun s => ∀ c ∈ s, p c = true) := by
  rintro s t r ⟨-, ht, -⟩
  exact ht

theorem yields_name : name.Yields (fun s => isName s.toList = true) := by
  have hc : (char isNameStart).Yields (fun c => isNameStart c = true) := fun _ _ _ h => h.2
  refine hc.bind fun c hc => (yields_run isNamePart).bind fun s hs => .pure ?_
  rw [String.toList_ofList, isName, hc, List.all_eq_true.2 hs]
  rfl

theorem yields_documentation : documentation.Yields Documentation.IsPrintable := by
  have hl : documentationLine.Yields (fun l => ∀ c ∈ l, (!isNewline c) = true) :=
    Yields.after fun _ => yields_run _
  refine hl.many1.bind fun ls ⟨hne, hls⟩ => .pure (isPrintable_documentationText hne fun l h c hc => ?_)
  simpa using hls l h c hc

theorem yields_markArgument :
    markArgument.Yields (fun s => ∀ c ∈ s.toList, c ≠ '"' ∧ isNewline c = false) := by
  have hs : stringLiteral.Yields (fun s => ∀ c ∈ s.toList, c ≠ '"' ∧ isNewline c = false) := by
    refine Yields.after fun _ => (yields_run _).bind fun s hs => Yields.after fun _ => .pure fun c hc => ?_
    rw [String.toList_ofList] at hc
    simpa using hs c hc
  exact Yields.after fun _ => Yields.after fun _ => hs.bind fun s hs => Yields.after fun _ => Yields.after fun _ =>
    .pure hs

theorem yields_mark : mark.Yields Mark.IsPrintable :=
  Yields.after fun _ => Yields.after fun _ => yields_markArgument.optional.bind fun _ ha => .pure ha

theorem yields_column : column.Yields ColumnDeclaration.IsPrintable := by
  refine yields_documentation.optional.bind fun documentation hd => Yields.after fun _ => ?_
  refine yields_name.bind fun text hn => Yields.after fun _ => Yields.after fun (type, optional) => ?_
  exact Yields.after fun _ => yields_mark.many.bind fun marks hm => .pure ⟨hn, hm, hd⟩

theorem yields_model : model.Yields ModelDeclaration.IsPrintable := by
  refine yields_documentation.optional.bind fun documentation hd => Yields.after fun _ => ?_
  refine Yields.after fun _ => Yields.after fun _ => yields_name.bind fun text hn => Yields.after fun _ => ?_
  refine yields_mark.many.bind fun marks hm => Yields.after fun _ => Yields.after fun _ => ?_
  refine Yields.after fun _ => yields_column.many.bind fun columns hc => Yields.after fun _ => ?_
  exact Yields.after fun _ => .pure ⟨hn, hm, hd, hc⟩

theorem yields_schema : schema.Yields (fun ds => ∀ d ∈ ds, d.IsPrintable) :=
  Yields.after fun _ => yields_model.many.bind fun _ hm => Yields.after fun _ => Yields.after fun _ => .pure hm

end Form

theorem mapping_isTarget {marks : List Mark} (hm : ∀ a ∈ marks, a.IsPrintable) {x : Option String}
    (h : mapping marks = .ok x) : ∀ t ∈ x, IsTarget t := by
  induction marks generalizing x with
  | nil =>
      cases h
      simp
  | cons a marks ih =>
      obtain ⟨ha, hms⟩ := List.forall_mem_cons.1 hm
      obtain ⟨t, ht, h⟩ := bind_eq_ok.1 h
      obtain ⟨later, hl, h⟩ := bind_eq_ok.1 h
      cases h
      obtain ⟨-, harg, hne⟩ := Mark.target_eq_ok.1 ht
      rintro u ⟨⟩
      cases later with
      | none => exact ⟨hne, ha t harg⟩
      | some u => exact ih hms hl u rfl

theorem ColumnDeclaration.isPrintable_of_bare {d : ColumnDeclaration} (h : d.bare.IsPrintable) : d.IsPrintable :=
  ⟨h.name, h.marks, fun c hc => h.documented c.bare (Option.mem_map_of_mem _ hc)⟩

theorem ModelDeclaration.isPrintable_of_bare {d : ModelDeclaration} (h : d.bare.IsPrintable) : d.IsPrintable where
  name := h.name
  marks := h.marks
  documented c hc := h.documented c.bare (Option.mem_map_of_mem _ hc)
  columns c hc := ColumnDeclaration.isPrintable_of_bare (h.columns c.bare (List.mem_map_of_mem hc))

end Schema

theorem Column.isPrintable_of_ofDeclaration {model : String} {d : Schema.ColumnDeclaration} {c : Column}
    (hd : d.IsPrintable) (h : ofDeclaration model d = .ok c) : c.IsPrintable := by
  obtain ⟨type, column, -, hm, rfl⟩ := ofDeclaration_eq_ok.1 h
  exact ⟨hd.name, Schema.mapping_isTarget hd.marks hm, hd.documented⟩

theorem Model.isPrintable_of_ofDeclaration {d : Schema.ModelDeclaration} {m : Model} (hd : d.IsPrintable)
    (h : ofDeclaration d = .ok m) : m.IsPrintable := by
  obtain ⟨table, columns, hm, hc, hn, rfl⟩ := ofDeclaration_eq_ok.1 h
  refine ⟨hd.name, Schema.mapping_isTarget hd.marks hm, hd.documented, fun c h => ?_, hn⟩
  obtain ⟨e, he, hec⟩ := exists_of_forall₂ hc c h
  exact Column.isPrintable_of_ofDeclaration (hd.columns e he) hec

theorem Schema.isPrintable_of_parse {text : String} {s : Schema} (h : parse text = .ok s) : s.IsPrintable := by
  obtain ⟨ds, hds, hms, hn⟩ := parse_eq_ok.1 h
  refine ⟨fun m hm => ?_, hn⟩
  obtain ⟨d, hd, hdm⟩ := exists_of_forall₂ hms m hm
  have hb := Form.yields_schema _ _ _ (declarations_iff.1 ⟨ds, hds, rfl⟩) d.bare (List.mem_map_of_mem hd)
  exact Model.isPrintable_of_ofDeclaration (ModelDeclaration.isPrintable_of_bare hb) hdm

end PredicateSearch
