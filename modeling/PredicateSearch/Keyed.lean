namespace PredicateSearch.Keyed

variable {α : Type} (key : α → String)

/-- Replaces the entry of the same key in its place, or adds one at the end. -/
def upsert (a : α) : List α → List α
  | [] => [a]
  | b :: s => if key b = key a then a :: s else b :: upsert a s

def find? (k : String) : List α → Option α
  | [] => none
  | b :: s => if key b = k then some b else find? k s

theorem find?_upsert (a : α) (k : String) (s : List α) :
    find? key k (upsert key a s) = if key a = k then some a else find? key k s := by
  induction s with
  | nil => rfl
  | cons b s ih =>
    by_cases hb : key b = key a
    · by_cases hk : key a = k <;> simp [upsert, find?, hb, hk]
    · by_cases hk : key b = k
      · subst hk
        simp [upsert, find?, hb, Ne.symm hb]
      · simp [upsert, find?, hb, hk, ih]

theorem map_key_upsert (a : α) (s : List α) :
    (upsert key a s).map key = if key a ∈ s.map key then s.map key else s.map key ++ [key a] := by
  induction s with
  | nil => rfl
  | cons b s ih =>
    by_cases hb : key b = key a
    · simp [upsert, hb]
    · by_cases hm : key a ∈ s.map key
      · simp [upsert, hb, ih, hm]
      · simp [upsert, hb, ih, hm, Ne.symm hb]

theorem nodup_upsert (a : α) {s : List α} (h : (s.map key).Nodup) :
    ((upsert key a s).map key).Nodup := by
  rw [map_key_upsert]
  split
  · exact h
  · next hm => exact List.nodup_append.2 ⟨h, by simp, fun x hx y hy hxy => hm (by simp_all)⟩

theorem find?_eq_none {key : α → String} {k : String} {s : List α} : find? key k s = none ↔ k ∉ s.map key := by
  induction s with
  | nil => simp [find?]
  | cons b s ih => by_cases hb : key b = k <;> simp [find?, hb, ih, @eq_comm _ k]

theorem find?_of_mem {key : α → String} {a : α} {s : List α} (h : (s.map key).Nodup) (ha : a ∈ s) :
    find? key (key a) s = some a := by
  induction s with
  | nil => cases ha
  | cons b s ih =>
    obtain ⟨hb, hs⟩ := List.nodup_cons.1 h
    rcases List.mem_cons.1 ha with rfl | ha
    · simp [find?]
    · have hne : key b ≠ key a := fun he => hb (he ▸ List.mem_map_of_mem ha)
      simp [find?, hne, ih hs ha]

theorem upsert_of_notMem {key : α → String} {a : α} {s : List α} (h : key a ∉ s.map key) :
    upsert key a s = s ++ [a] := by
  induction s with
  | nil => rfl
  | cons b s ih =>
    simp only [List.map_cons, List.mem_cons, not_or] at h
    simp [upsert, Ne.symm h.1, ih h.2]

/-- Entries with new keys of their own. -/
def Fresh (s as : List α) : Prop := (as.map key).Nodup ∧ ∀ k ∈ as.map key, k ∉ s.map key

theorem fresh_nil (s : List α) : Fresh key s [] := ⟨.nil, by simp⟩

theorem fresh_nil_left {as : List α} : Fresh key [] as ↔ (as.map key).Nodup := by simp [Fresh]

theorem fresh_cons {s as : List α} {a : α} :
    Fresh key s (a :: as) ↔ key a ∉ s.map key ∧ Fresh key (upsert key a s) as := by
  by_cases ha : key a ∈ s.map key
  · simp only [Fresh, List.map_cons, List.forall_mem_cons]
    exact ⟨fun h => absurd ha h.2.1, fun h => absurd ha h.1⟩
  · simp only [Fresh, map_key_upsert, if_neg ha, List.map_cons, List.nodup_cons, List.forall_mem_cons,
      List.mem_append, List.mem_singleton, not_or]
    constructor
    · rintro ⟨⟨hn, hd⟩, hk, h⟩
      exact ⟨hk, hd, fun k hm => ⟨h k hm, fun he => hn (he ▸ hm)⟩⟩
    · rintro ⟨hk, hd, h⟩
      exact ⟨⟨fun hm => (h _ hm).2 rfl, hd⟩, hk, fun k hm => (h k hm).1⟩

/-! Entries may be changed in everything but their keys. -/

section

variable {β : Type} {key} {key' : β → String} {f : α → β}

theorem find?_map (hf : ∀ a, key' (f a) = key a) (k : String) (s : List α) :
    find? key' k (s.map f) = (find? key k s).map f := by
  induction s with
  | nil => rfl
  | cons b s ih => by_cases hb : key b = k <;> simp [find?, hf, hb, ih]

theorem upsert_map (hf : ∀ a, key' (f a) = key a) (a : α) (s : List α) :
    upsert key' (f a) (s.map f) = (upsert key a s).map f := by
  induction s with
  | nil => rfl
  | cons b s ih => by_cases hb : key b = key a <;> simp [upsert, hf, hb, ih]

end

end PredicateSearch.Keyed
