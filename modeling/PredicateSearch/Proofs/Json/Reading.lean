import PredicateSearch.Json.Reading
import PredicateSearch.Json.Text
import PredicateSearch.Proofs.Decimal.Numeral
import PredicateSearch.Proofs.Json
import PredicateSearch.Proofs.Text.Reader

namespace PredicateSearch

namespace Decimal

theorem head?_natText {n : Nat} (h : n ≠ 0) : (natText n).head? ≠ some '0' := by
  induction n using Nat.strongRecOn with
  | ind n ih =>
      rw [natText, Nat.toDigits_eq_if (by decide)]
      split
      · next hn =>
          have hd : ∀ m < 10, m ≠ 0 → Nat.digitChar m ≠ '0' := by decide
          simpa using hd n hn h
      · next hn =>
          have hq := ih (n / 10) (by omega) (by omega)
          rw [natText] at hq
          obtain ⟨c, s, hc⟩ := List.exists_cons_of_ne_nil (Nat.toDigits_ne_nil (n := n / 10) (b := 10))
          rw [hc] at hq ⊢
          exact hq

end Decimal

namespace Json

open Text Decimal Reader

/-! Strings. -/

/-- Every control below the blank is read back from the four digits that it is written with. -/
theorem fourDigits_control : ∀ n < 0x20, (fourDigits n).length = 4 ∧ (fourDigits n).all isHexDigit = true ∧
    ofHexDigits 16 (fourDigits n) = n ∧ isLeadSurrogate n = false ∧ charOfNat? n = some (Char.ofNat n) := by
  decide

theorem codePoint_fourDigits {n : Nat} (h : n < 0x20) (t : List Char) :
    codePoint (fourDigits n ++ t) = some (Char.ofNat n, t) := by
  obtain ⟨hl, hd, hn, hs, hc⟩ := fourDigits_control n h
  have ht := times_char (List.all_eq_true.1 hd) t
  rw [hl] at ht
  have hf : fourDigit (fourDigits n ++ t) = some (n, t) := by
    rw [fourDigit, bind_of_some ht, hn]
    rfl
  rw [codePoint, bind_of_some hf, hs, hc]
  rfl

theorem stringChar_escapeChar (c : Char) (t : List Char) : stringChar (escapeChar c ++ t) = some (c, t) := by
  unfold escapeChar
  split
  · rfl
  · rfl
  · rfl
  · rfl
  · rfl
  · rfl
  · rfl
  · next hq hb _ _ _ _ _ =>
      split
      · next hc =>
          have h := codePoint_fourDigits hc t
          rw [Char.ofNat_toNat] at h
          exact h
      · next hc =>
          have hp : (decide (c ≠ '"') && decide (0x20 ≤ c.toNat)) = true := by
            simpa using ⟨hq, Nat.le_of_not_lt hc⟩
          rw [List.singleton_append, stringChar, bind_of_some (char_cons hp t), if_neg hb]
          rfl

theorem escapeChar_ne_nil (c : Char) : escapeChar c ≠ [] := by
  intro h
  have hc := stringChar_escapeChar c []
  rw [h] at hc
  cases hc

theorem stringReader_stringText {fuel : Nat} {s : String} (h : s.toList.length ≤ fuel) (t : List Char) :
    stringReader fuel (stringText s ++ t) = some (s, t) := by
  have hs : upTo stringChar fuel (s.toList.flatMap escapeChar ++ ('"' :: t)) = some (s.toList, '"' :: t) :=
    upTo_flatMap (P := fun _ => True) (fun c _ t _ => stringChar_escapeChar c t) (fun _ _ _ => trivial) trivial rfl h
  have ht : stringText s ++ t = '"' :: (s.toList.flatMap escapeChar ++ ('"' :: t)) := by simp [stringText]
  rw [ht, stringReader, bind_of_some (literal_cons _ _), bind_of_some hs, bind_of_some (literal_cons _ _),
    String.ofList_toList]
  rfl

/-! Numbers. -/

/-- What may stand behind a value: nothing, or what follows it in an array or an object. -/
def Stops (t : List Char) : Prop := ∀ c ∈ t.head?, c = ',' ∨ c = ']' ∨ c = '\x7d'

theorem wholeDigits_natText (n : Nat) {t : List Char} (ht : ∀ c ∈ t.head?, c.isDigit = false) :
    wholeDigits (natText n ++ t) = some (natText n, t) := by
  obtain ⟨hne, hd⟩ := isDigits_natText n
  have hz : ¬((natText n).head? = some '0' ∧ natText n ≠ ['0']) := by
    rintro ⟨hh, hs⟩
    cases n with
    | zero => exact hs rfl
    | succ n => exact head?_natText n.succ_ne_zero hh
  rw [wholeDigits, bind_of_some (run1_append hne hd ht), if_neg hz]
  rfl

theorem sign_intText (n : Int) (t : List Char) :
    optional (literal ['-']) (intText n ++ t) = some (if n < 0 then some () else none, natText n.natAbs ++ t) := by
  unfold intText
  split
  · exact optional_of_some (literal_cons '-' _)
  · obtain ⟨c, s, hs, hc⟩ := (isDigits_natText n.natAbs).exists_cons
    have hne : '-' ≠ c := by
      rintro rfl
      cases hc
    rw [hs]
    exact optional_of_none (literal_of_ne hne [] _)

theorem Stops.optional {α : Type} {r : Reader α} {t : List Char} (h : Stops t) (hn : r [] = none)
    (hr : ∀ s, r (',' :: s) = none ∧ r (']' :: s) = none ∧ r ('\x7d' :: s) = none) :
    optional r t = some (none, t) := by
  apply optional_of_none
  cases t with
  | nil => exact hn
  | cons c s =>
      obtain ⟨hc, hb, hm⟩ := hr s
      rcases h c rfl with rfl | rfl | rfl
      · exact hc
      · exact hb
      · exact hm

theorem number_intText (n : Int) {t : List Char} (ht : Stops t) : number (intText n ++ t) = some (int n, t) := by
  have hw : wholeDigits (natText n.natAbs ++ t) = some (natText n.natAbs, t) := by
    refine wholeDigits_natText _ fun c hc => ?_
    rcases ht c hc with rfl | rfl | rfl <;> rfl
  have hf : optional fractionDigits t = some (none, t) := ht.optional rfl fun _ => ⟨rfl, rfl, rfl⟩
  have he : optional exponentDigits t = some (none, t) := ht.optional rfl fun _ => ⟨rfl, rfl, rfl⟩
  have hs : ¬ ((if n < 0 then some () else none).isSome ∧ n.natAbs = 0) := by
    rintro ⟨hs, h0⟩
    rw [if_neg (by omega)] at hs
    cases hs
  have hn : (if (if n < 0 then some () else none).isSome then -(n.natAbs : Int) else n.natAbs) = n := by
    by_cases h : n < 0
    · rw [if_pos h, Option.isSome_some, if_pos rfl]
      omega
    · rw [if_neg h]
      exact Int.natAbs_of_nonneg (Int.not_lt.1 h)
  rw [number, bind_of_some (sign_intText n t), bind_of_some hw, bind_of_some hf, bind_of_some he, natText,
    Nat.ofDigitChars_ten_toDigits]
  simp only [hn]
  rw [if_pos ⟨rfl, rfl, hs⟩]
  rfl

/-! Arrays and objects. -/

/-- A document without doubles. -/
inductive Exact : Json → Prop
  | null : Exact .null
  | bool (b) : Exact (.bool b)
  | int (n) : Exact (.int n)
  | string (s) : Exact (.string s)
  | array {items} (h : ∀ d ∈ items, Exact d) : Exact (.array items)
  | object {members} (h : ∀ m ∈ members, Exact m.2) : Exact (.object members)

theorem exact_object {members : List (String × Json)} : (object members).Exact ↔ ∀ m ∈ members, m.2.Exact := by
  constructor
  · rintro ⟨⟩
    assumption
  · exact .object

def memberText (m : String × Json) : List Char := stringText m.1 ++ ':' :: text m.2

/-- Written one after another with commas between. -/
def commaText {α : Type} (write : α → List Char) : List α → List Char
  | [] => []
  | a :: as => write a ++ as.flatMap fun b => ',' :: write b

theorem itemsText_eq (items : List Json) : itemsText items = commaText text items := by
  induction items with
  | nil => rfl
  | cons d s ih =>
      cases s with
      | nil => exact (List.append_nil _).symm
      | cons e s =>
          rw [itemsText, ih]
          rfl

theorem membersText_eq (members : List (String × Json)) : membersText members = commaText memberText members := by
  induction members with
  | nil => rfl
  | cons m s ih =>
      cases s with
      | nil => exact (List.append_nil _).symm
      | cons e s =>
          rw [membersText, ih]
          simp [commaText, memberText]

section

variable {α : Type} {write : α → List Char} {as : List α}

theorem length_le_flatMap (h : ∀ a ∈ as, write a ≠ []) : as.length ≤ (as.flatMap write).length := by
  induction as with
  | nil => exact Nat.le_refl 0
  | cons a as ih =>
      obtain ⟨ha, has⟩ := List.forall_mem_cons.1 h
      have hp := List.length_pos_iff.2 ha
      have hi := ih has
      rw [List.flatMap_cons, List.length_append, List.length_cons]
      omega

theorem length_write_le {a : α} (h : a ∈ as) : (write a).length ≤ (commaText write as).length := by
  cases as with
  | nil => cases h
  | cons b as =>
      rw [commaText, List.length_append]
      rcases List.mem_cons.1 h with rfl | h
      · exact Nat.le_add_right _ _
      · have hm : ',' :: write a ∈ as.map fun b => ',' :: write b := List.mem_map_of_mem h
        have hs := (List.sublist_flatten_of_mem hm).length_le
        rw [List.length_cons, ← List.flatMap_def] at hs
        omega

end

theorem length_le_stringText (s : String) : s.toList.length ≤ (stringText s).length := by
  have h : s.toList.length ≤ (s.toList.flatMap escapeChar).length := length_le_flatMap fun c _ => escapeChar_ne_nil c
  rw [stringText, List.length_append, List.length_cons]
  omega

/-- Begins with something that is no blank. -/
def Shows (s : List Char) : Prop := ∃ c t, s = c :: t ∧ 0x20 < c.toNat

theorem Shows.append {s : List Char} (h : Shows s) (t : List Char) : Shows (s ++ t) := by
  obtain ⟨c, u, rfl, hc⟩ := h
  exact ⟨c, u ++ t, rfl, hc⟩

theorem Shows.blanks {s : List Char} (h : Shows s) : blanks s = some ([], s) := by
  obtain ⟨c, t, rfl, hc⟩ := h
  refine run_append (s := []) (by simp) fun d hd => ?_
  cases hd
  simp only [Bool.or_eq_false_iff, decide_eq_false_iff_not]
  refine ⟨⟨⟨?_, ?_⟩, ?_⟩, ?_⟩ <;> rintro rfl <;> revert hc <;> decide

theorem Stops.blanks {t : List Char} (h : Stops t) : blanks t = some ([], t) := by
  cases t with
  | nil => rfl
  | cons c t =>
      refine Shows.blanks ⟨c, t, rfl, ?_⟩
      rcases h c rfl with rfl | rfl | rfl <;> decide

theorem shows_text {d : Json} (h : d.Exact) : Shows d.text := by
  cases h with
  | null => exact ⟨_, _, rfl, by decide⟩
  | bool b => cases b <;> exact ⟨_, _, rfl, by decide⟩
  | int n =>
      obtain ⟨c, t, hc, h⟩ := (isNumeral_intText n).exists_cons
      refine ⟨c, t, hc, ?_⟩
      rcases h with rfl | h
      · decide
      · exact Nat.lt_of_lt_of_le (by decide) (Char.isDigit_iff_toNat.1 h).1
  | string s => exact ⟨_, _, rfl, by decide⟩
  | array _ => exact ⟨_, _, rfl, by decide⟩
  | object _ => exact ⟨_, _, rfl, by decide⟩

section

variable {α : Type} {r : Reader α} {write : α → List Char} {as : List α} {fuel : Nat} {t : List Char}

theorem length_le_commaText (hw : ∀ a ∈ as, Shows (write a)) : as.length ≤ (commaText write as).length := by
  cases as with
  | nil => exact Nat.zero_le _
  | cons a as =>
      obtain ⟨c, s, hc, -⟩ := hw a List.mem_cons_self
      have h : as.length ≤ (as.flatMap fun b => ',' :: write b).length :=
        length_le_flatMap fun _ _ => List.cons_ne_nil _ _
      rw [commaText, List.length_append, List.length_cons, hc, List.length_cons]
      omega

theorem shows_commaText (hw : ∀ a ∈ as, Shows (write a)) (ht : Shows t) : Shows (commaText write as ++ t) := by
  cases as with
  | nil => exact ht
  | cons a as =>
      rw [commaText, List.append_assoc]
      exact (hw a List.mem_cons_self).append _

theorem sepByUpTo_commaText (hr : ∀ a ∈ as, ∀ s, Stops s → r (write a ++ s) = some (a, s))
    (hw : ∀ a ∈ as, Shows (write a)) (ht : Stops t) (hend : r t = none) (hcomma : literal [','] t = none)
    (hn : (commaText write as).length ≤ fuel) :
    sepByUpTo fuel (r <* blanks) (literal [','] *> blanks) (commaText write as ++ t) = some (as, t) := by
  have hn := Nat.le_trans (length_le_commaText hw) hn
  have hb : ∀ a ∈ as, ∀ s, Stops s → (r <* blanks) (write a ++ s) = some (a, s) := fun a ha s hs =>
    seqLeft_of_some (hr a ha s hs) hs.blanks
  cases as with
  | nil =>
      rw [commaText, List.nil_append]
      exact sepByUpTo_of_none (seqLeft_of_none hend)
  | cons a as =>
      have hs : Stops ((as.flatMap fun b => ',' :: write b) ++ t) := by
        cases as with
        | nil => exact ht
        | cons b as =>
            rintro c ⟨⟩
            exact .inl rfl
      rw [commaText, List.append_assoc]
      refine sepByUpTo_of_some (hb a List.mem_cons_self _ hs) ?_
      refine upTo_flatMap (P := Stops) ?_ ?_ ht ?_ (Nat.le_of_succ_le hn)
      · intro b hm s hs
        have hm := List.mem_cons_of_mem a hm
        have hc : (literal [','] *> blanks) ((',' :: write b) ++ s) = some ([], write b ++ s) := by
          rw [List.cons_append, seqRight_of_some (literal_cons _ _)]
          exact ((hw b hm).append s).blanks
        rw [seqRight_of_some hc]
        exact hb b hm s hs
      · rintro b _ s c ⟨⟩
        exact .inl rfl
      · exact seqRight_of_none (seqRight_of_none hcomma)

end

theorem member_memberText {fuel : Nat} {r : Reader Json} {m : String × Json} {t : List Char}
    (hm : m.2.Exact) (hf : (memberText m).length ≤ fuel) (hr : r (m.2.text ++ t) = some (m.2, t)) :
    member fuel r (memberText m ++ t) = some (m, t) := by
  have hk : m.1.toList.length ≤ fuel := by
    have h := length_le_stringText m.1
    rw [memberText, List.length_append] at hf
    omega
  have hs : memberText m ++ t = stringText m.1 ++ (':' :: (m.2.text ++ t)) := by simp [memberText]
  have hb : Shows (':' :: (m.2.text ++ t)) := ⟨_, _, rfl, by decide⟩
  have hv := (shows_text hm).append t
  rw [hs, member, bind_of_some (stringReader_stringText hk _), bind_of_some hb.blanks, bind_of_some (literal_cons _ _),
    bind_of_some hv.blanks, bind_of_some hr]
  rfl

theorem value_eq_number {fuel : Nat} {c : Char} {s : List Char} (h : c = '-' ∨ c.isDigit = true) :
    value (fuel + 1) (c :: s) = number (c :: s) := by
  have hp : peek (c :: s) = some (some c, c :: s) := rfl
  rw [value, bind_of_some hp]
  refine congrFun (?_ : _ = number) (c :: s)
  split
  case h_7 => rfl
  all_goals
    next he =>
      cases he
      exact absurd h (by decide)

theorem value_of_items {fuel : Nat} {items : List Json} {s t : List Char} (hs : Shows s)
    (h : sepByUpTo fuel (value fuel <* blanks) (literal [','] *> blanks) s = some (items, ']' :: t)) :
    value (fuel + 1) ('[' :: s) = some (array items, t) := by
  have hp : peek ('[' :: s) = some (some '[', '[' :: s) := rfl
  rw [value, bind_of_some hp]
  change (literal ['['] >>= _) ('[' :: s) = _
  rw [bind_of_some (literal_cons _ _), bind_of_some hs.blanks, bind_of_some h, bind_of_some (literal_cons _ _)]
  rfl

theorem value_of_members {fuel : Nat} {members : List (String × Json)} {s t : List Char} (hs : Shows s)
    (h : sepByUpTo fuel (member fuel (value fuel) <* blanks) (literal [','] *> blanks) s =
      some (members, '\x7d' :: t)) :
    value (fuel + 1) ('\x7b' :: s) = some (object members, t) := by
  have hp : peek ('\x7b' :: s) = some (some '\x7b', '\x7b' :: s) := rfl
  rw [value, bind_of_some hp]
  change (literal ['\x7b'] >>= _) ('\x7b' :: s) = _
  rw [bind_of_some (literal_cons _ _), bind_of_some hs.blanks, bind_of_some h, bind_of_some (literal_cons _ _)]
  rfl

theorem value_text {d : Json} (hd : d.Exact) {fuel : Nat} (hf : d.text.length ≤ fuel) {t : List Char} (ht : Stops t) :
    value (fuel + 1) (d.text ++ t) = some (d, t) := by
  induction hd generalizing fuel t with
  | null => rfl
  | bool b => cases b <;> rfl
  | int n =>
      obtain ⟨c, s, hc, h⟩ := (isNumeral_intText n).exists_cons
      rw [text, ← number_intText n ht, hc]
      exact value_eq_number h
  | string s =>
      have hp (u) : value (fuel + 1) (stringText s ++ u) = (string <$> stringReader fuel) (stringText s ++ u) := rfl
      rw [text, hp]
      exact map_of_some (stringReader_stringText (Nat.le_trans (length_le_stringText s) hf) t)
  | @array items h ih =>
      have hw : ∀ e ∈ items, Shows e.text := fun e he => shows_text (h e he)
      rw [text, itemsText_eq] at hf ⊢
      rw [List.length_append, List.length_cons, List.length_singleton] at hf
      obtain ⟨k, rfl⟩ := Nat.exists_eq_add_one_of_ne_zero (n := fuel) (by omega)
      have hr : ∀ e ∈ items, ∀ s, Stops s → value (k + 1) (text e ++ s) = some (e, s) := by
        intro e he s hs
        have hle : e.text.length ≤ (commaText text items).length := length_write_le he
        exact ih e he (by omega) hs
      have hs : Stops (']' :: t) := by
        rintro c ⟨⟩
        exact .inr (.inl rfl)
      have hb : Shows (commaText text items ++ (']' :: t)) := shows_commaText hw ⟨_, _, rfl, by decide⟩
      rw [List.cons_append, List.cons_append, List.append_assoc]
      exact value_of_items hb (sepByUpTo_commaText hr hw hs rfl rfl (by omega))
  | @object members h ih =>
      have hw : ∀ m ∈ members, Shows (memberText m) := fun m _ => ⟨_, _, rfl, by decide⟩
      rw [text, membersText_eq] at hf ⊢
      rw [List.length_append, List.length_cons, List.length_singleton] at hf
      obtain ⟨k, rfl⟩ := Nat.exists_eq_add_one_of_ne_zero (n := fuel) (by omega)
      have hr : ∀ m ∈ members, ∀ s, Stops s → member (k + 1) (value (k + 1)) (memberText m ++ s) = some (m, s) := by
        intro m hm s hs
        have hle : (memberText m).length ≤ (commaText memberText members).length := length_write_le hm
        have hlt : m.2.text.length ≤ (memberText m).length := by
          rw [memberText, List.length_append, List.length_cons]
          omega
        exact member_memberText (h m hm) (by omega) (ih m hm (by omega) hs)
      have hs : Stops ('\x7d' :: t) := by
        rintro c ⟨⟩
        exact .inr (.inr rfl)
      have hb : Shows (commaText memberText members ++ ('\x7d' :: t)) := shows_commaText hw ⟨_, _, rfl, by decide⟩
      rw [List.cons_append, List.cons_append, List.append_assoc]
      exact value_of_members hb (sepByUpTo_commaText hr hw hs rfl rfl (by omega))

/-- The text of a document without doubles is read back as that document. -/
theorem parse?_text {d : Json} (h : d.Exact) : parse? d.text = some d := by
  have hv := value_text h (Nat.le_refl _) (t := []) (by rintro c ⟨⟩)
  rw [List.append_nil] at hv
  have hs : (blanks *> value (d.text.length + 1)) d.text = some (d, []) := by
    rw [seqRight_of_some (shows_text h).blanks, hv]
  have hb : blanks [] = some ([], []) := rfl
  rw [parse?, all?, seqLeft_of_some hs hb]

end Json

end PredicateSearch
