import Mathlib.Data.List.Basic
import PredicateSearch.Text.Reader

namespace PredicateSearch.Text.Reader

variable {α β : Type}

section

variable {r r' : Reader α} {k : α → Reader β} {s t : List Char} {a : α}

theorem bind_of_some (h : r s = some (a, t)) : (r >>= k) s = k a t := by
  change (r s).bind (fun x => k x.1 x.2) = _
  rw [h]
  rfl

theorem bind_of_none (h : r s = none) : (r >>= k) s = none := by
  change (r s).bind (fun x => k x.1 x.2) = _
  rw [h]
  rfl

theorem orElse_of_some (h : r s = some (a, t)) : (r <|> r') s = some (a, t) := by
  change (r s).orElse (fun _ => r' s) = _
  rw [h]
  rfl

theorem orElse_of_none (h : r s = none) : (r <|> r') s = r' s := by
  change (r s).orElse (fun _ => r' s) = _
  rw [h]
  rfl

theorem map_of_some {f : α → β} (h : r s = some (a, t)) : (f <$> r) s = some (f a, t) := by
  rw [map_eq_pure_bind, bind_of_some h]
  rfl

theorem seqRight_of_some {q : Reader β} (h : r s = some (a, t)) : (r *> q) s = q t := by
  rw [seqRight_eq_bind, bind_of_some h]

theorem seqRight_of_none {q : Reader β} (h : r s = none) : (r *> q) s = none := by
  rw [seqRight_eq_bind, bind_of_none h]

theorem seqLeft_of_some {q : Reader β} {b : β} {u : List Char} (h : r s = some (a, t)) (hq : q t = some (b, u)) :
    (r <* q) s = some (a, u) := by
  rw [seqLeft_eq_bind, bind_of_some h, bind_of_some hq]
  rfl

theorem seqLeft_of_none {q : Reader β} (h : r s = none) : (r <* q) s = none := by
  rw [seqLeft_eq_bind, bind_of_none h]

theorem optional_of_some (h : r s = some (a, t)) : optional r s = some (some a, t) :=
  orElse_of_some (map_of_some h)

theorem optional_of_none (h : r s = none) : optional r s = some (none, s) := by
  rw [optional, map_eq_pure_bind, orElse_of_none (bind_of_none h)]
  rfl

end

theorem literal_append (w s : List Char) : literal w (w ++ s) = some ((), s) := by
  rw [literal, List.isPrefixOf?_eq_some_iff_append_eq.2 rfl]
  rfl

theorem literal_cons (c : Char) (s : List Char) : literal [c] (c :: s) = some ((), s) := literal_append [c] s

theorem literal_of_ne {c x : Char} (h : c ≠ x) (w s : List Char) : literal (c :: w) (x :: s) = none := by
  simp [literal, List.isPrefixOf?, h]

section

variable {p : Char → Bool} {s t : List Char}

theorem char_cons {c : Char} (h : p c = true) (s : List Char) : char p (c :: s) = some (c, s) := if_pos h

theorem run_append (hs : ∀ c ∈ s, p c = true) (ht : ∀ c ∈ t.head?, p c = false) :
    run p (s ++ t) = some (s, t) := by
  rw [run, List.takeWhile_append_of_pos hs, List.dropWhile_append_of_pos hs]
  cases t with
  | nil => simp
  | cons c t => simp [ht c rfl]

theorem run1_append (hne : s ≠ []) (hs : ∀ c ∈ s, p c = true) (ht : ∀ c ∈ t.head?, p c = false) :
    run1 p (s ++ t) = some (s, t) := by
  obtain ⟨c, u, rfl⟩ := List.exists_cons_of_ne_nil hne
  obtain ⟨hc, hu⟩ := List.forall_mem_cons.1 hs
  rw [run1, List.cons_append, bind_of_some (char_cons hc _), bind_of_some (run_append hu ht)]
  rfl

theorem times_char (hs : ∀ c ∈ s, p c = true) (t : List Char) : times (char p) s.length (s ++ t) = some (s, t) := by
  induction s with
  | nil => rfl
  | cons c s ih =>
      obtain ⟨hc, hs⟩ := List.forall_mem_cons.1 hs
      rw [List.length_cons, times, List.cons_append, bind_of_some (char_cons hc _), bind_of_some (ih hs)]
      rfl

end

section

variable {r : Reader α} {write : α → List Char} {P : List Char → Prop} {as : List α} {t : List Char} {n : Nat}

/-- Things that can be read in front of one another are read one after another, up to where there are
none. -/
theorem upTo_flatMap (hr : ∀ a ∈ as, ∀ s, P s → r (write a ++ s) = some (a, s))
    (hw : ∀ a ∈ as, ∀ s, P (write a ++ s)) (ht : P t) (hend : r t = none) (hn : as.length ≤ n) :
    upTo r n (as.flatMap write ++ t) = some (as, t) := by
  induction as generalizing n with
  | nil =>
      cases n with
      | zero => rfl
      | succ n =>
          rw [List.flatMap_nil, List.nil_append, upTo, orElse_of_none (bind_of_none hend)]
          rfl
  | cons a as ih =>
      obtain ⟨n, rfl⟩ := Nat.exists_eq_add_one_of_ne_zero (Nat.ne_zero_of_lt hn)
      rw [List.forall_mem_cons] at hr hw
      have hs : P (as.flatMap write ++ t) := by
        cases as with
        | nil => exact ht
        | cons b as =>
            rw [List.flatMap_cons, List.append_assoc]
            exact hw.2 b List.mem_cons_self _
      rw [List.flatMap_cons, List.append_assoc, upTo]
      apply orElse_of_some
      rw [bind_of_some (hr.1 _ hs), bind_of_some (ih hr.2 hw.2 (Nat.le_of_succ_le_succ hn))]
      rfl

end

section

variable {r : Reader α} {separator : Reader β} {s t : List Char} {n : Nat}

theorem sepByUpTo_of_none (h : r s = none) : sepByUpTo n r separator s = some ([], s) := by
  rw [sepByUpTo, sepBy1UpTo, orElse_of_none (bind_of_none h)]
  rfl

theorem sepByUpTo_of_some {a : α} {as : List α} {u : List Char} (h : r s = some (a, t))
    (hs : upTo (separator *> r) n t = some (as, u)) : sepByUpTo n r separator s = some (a :: as, u) := by
  apply orElse_of_some
  rw [sepBy1UpTo, bind_of_some h, bind_of_some hs]
  rfl

end

end PredicateSearch.Text.Reader
