import Mathlib.Data.List.Find
import PredicateSearch.Keyed
import PredicateSearch.Proofs.Outcome

namespace PredicateSearch.Keyed

section

variable {α δ ε : Type} (key : α → String) (build : δ → Except ε α) (taken : α → ε)

/-- Adds what is built one after another, up to the first that cannot be built or has a key that is taken. -/
def extend : List α → List δ → Except ε (List α)
  | s, [] => .ok s
  | s, d :: ds => do
    let a ← build d
    if (find? key (key a) s).isSome then .error (taken a) else extend (upsert key a s) ds

end

section

variable {α δ ε : Type} {key : α → String} {build : δ → Except ε α} {taken : α → ε} {s : List α} {ds : List δ}

theorem isSome_find? {k : String} : (find? key k s).isSome = true ↔ k ∈ s.map key := by
  rw [← Decidable.not_iff_not, Option.not_isSome_iff_eq_none, find?_eq_none]

theorem extend_eq_ok {r : List α} :
    extend key build taken s ds = .ok r ↔
      ∃ as, List.Forall₂ (fun d a => build d = .ok a) ds as ∧ Fresh key s as ∧ r = s ++ as := by
  induction ds generalizing s with
  | nil => simp [extend, fresh_nil, eq_comm]
  | cons d ds ih =>
      simp only [extend, bind_eq_ok, isSome_find?, List.forall₂_cons_left_iff]
      constructor
      · rintro ⟨a, ha, h⟩
        split at h
        · cases h
        · next hk =>
            obtain ⟨as, has, hf, rfl⟩ := ih.1 h
            refine ⟨a :: as, ⟨a, as, ha, has, rfl⟩, (fresh_cons _).2 ⟨hk, hf⟩, ?_⟩
            simp [upsert_of_notMem hk]
      · rintro ⟨_, ⟨a, as, ha, has, rfl⟩, hf, rfl⟩
        obtain ⟨hk, hf⟩ := (fresh_cons _).1 hf
        refine ⟨a, ha, (if_neg hk).trans (ih.2 ⟨as, has, hf, ?_⟩)⟩
        simp [upsert_of_notMem hk]

/-- Up to the first fault all goes well. -/
theorem extend_eq_error {e : ε} :
    extend key build taken s ds = .error e ↔
      ∃ p d q r, ds = p ++ d :: q ∧ extend key build taken s p = .ok r ∧
        (build d = .error e ∨ ∃ a, build d = .ok a ∧ key a ∈ r.map key ∧ e = taken a) := by
  induction ds generalizing s with
  | nil => simp [extend]
  | cons d ds ih =>
      simp only [extend, bind_eq_error, isSome_find?]
      constructor
      · rintro (h | ⟨a, ha, h⟩)
        · exact ⟨[], d, ds, s, rfl, rfl, .inl h⟩
        · split at h
          · next hk =>
              cases h
              exact ⟨[], d, ds, s, rfl, rfl, .inr ⟨a, ha, hk, rfl⟩⟩
          · next hk =>
              obtain ⟨p, c, q, r, rfl, hp, hc⟩ := ih.1 h
              refine ⟨d :: p, c, q, r, rfl, ?_, hc⟩
              simp only [extend, bind_eq_ok, isSome_find?]
              exact ⟨a, ha, (if_neg hk).trans hp⟩
      · rintro ⟨_ | ⟨b, p⟩, c, q, r, he, hp, hc⟩
        · cases he
          cases hp
          rcases hc with hc | ⟨a, ha, hk, rfl⟩
          · exact .inl hc
          · exact .inr ⟨a, ha, if_pos hk⟩
        · cases he
          simp only [extend, bind_eq_ok, isSome_find?] at hp
          obtain ⟨a, ha, hp⟩ := hp
          split at hp
          · cases hp
          · next hk => exact .inr ⟨a, ha, (if_neg hk).trans (ih.2 ⟨p, c, q, r, rfl, hp, hc⟩)⟩

theorem extend_append {es : List δ} :
    extend key build taken s (ds ++ es) =
      extend key build taken s ds >>= fun r => extend key build taken r es := by
  induction ds generalizing s with
  | nil => rfl
  | cons d ds ih =>
      rw [List.cons_append, extend, extend]
      cases build d with
      | error e => rfl
      | ok a =>
          simp only [bind, Except.bind, ih]
          split <;> rfl

/-- If each can be built and they have keys of their own, only one that is taken before can make them fail. -/
theorem extend_of_forall₂ {as : List α} (h : List.Forall₂ (fun d a => build d = .ok a) ds as)
    (hn : (as.map key).Nodup) :
    extend key build taken s ds =
      match as.find? fun a => key a ∈ s.map key with
      | none => .ok (s ++ as)
      | some a => .error (taken a) := by
  induction h generalizing s with
  | nil => simp [extend]
  | @cons d a ds as ha _ ih =>
      obtain ⟨hna, hn⟩ := List.nodup_cons.1 hn
      rw [extend, ha]
      by_cases hk : key a ∈ s.map key
      · rw [List.find?_cons_of_pos (by simpa using hk)]
        exact if_pos (isSome_find?.2 hk)
      · have hf : (as.find? fun b => key b ∈ s.map key) = as.find? fun b => key b ∈ (s ++ [a]).map key := by
          apply List.find?_congr
          intro b hb
          have hne : key b ≠ key a := fun he => hna (he ▸ List.mem_map_of_mem hb)
          simp [hne]
        rw [List.find?_cons_of_neg (by simpa using hk), hf, List.append_cons s a as, ← ih hn, ← upsert_of_notMem hk]
        exact if_neg (fun h => hk (isSome_find?.1 h))

/-- What keys say nothing of can be changed before or after. -/
theorem extend_map {β γ : Type} {key' : β → String} {build' : γ → Except ε β} {taken' : β → ε} {f : α → β}
    {g : δ → γ} (hk : ∀ a, key' (f a) = key a) (hb : ∀ d, (build d).map f = build' (g d))
    (ht : ∀ a, taken' (f a) = taken a) :
    (extend key build taken s ds).map (List.map f) = extend key' build' taken' (s.map f) (ds.map g) := by
  induction ds generalizing s with
  | nil => rfl
  | cons d ds ih =>
      rw [List.map_cons, extend, extend, ← hb]
      refine map_bind_of fun a => ?_
      rw [hk, find?_map hk, Option.isSome_map, upsert_map hk, ← ih, ht]
      split <;> rfl

end

section

variable {α δ ε : Type} (name : δ → String) (own : δ → List ε) (duplicate : δ → ε)

/-- What is wrong with entries in their order: of each what is wrong with itself, and then whether an
entry before it has its name. -/
def faults : List String → List δ → List ε
  | _, [] => []
  | earlier, d :: ds =>
    own d ++ ((if name d ∈ earlier then [duplicate d] else []) ++ faults (earlier ++ [name d]) ds)

end

section

variable {α δ ε : Type} {key : α → String} {build : δ → Except ε α} {taken : α → ε} {name : δ → String}
  {own : δ → List ε} {duplicate : δ → ε}

theorem failsFirst_extend (hb : ∀ d, FailsFirst (build d) (own d))
    (hk : ∀ d a, build d = .ok a → key a = name d ∧ taken a = duplicate d) (s : List α) (ds : List δ) :
    FailsFirst (extend key build taken s ds) (faults name own duplicate (s.map key) ds) := by
  induction ds generalizing s with
  | nil => exact ⟨s, rfl⟩
  | cons d ds ih =>
      rw [extend, faults]
      apply (hb d).bind
      intro a ha
      obtain ⟨hn, ht⟩ := hk d a ha
      by_cases hm : name d ∈ s.map key
      · rw [if_pos hm, if_pos (isSome_find?.2 (hn ▸ hm)), ht]
        rfl
      · have hu := map_key_upsert key a s
        rw [hn, if_neg hm] at hu
        rw [if_neg hm, if_neg (fun h => hm (hn ▸ isSome_find?.1 h)), List.nil_append, ← hu]
        exact ih (upsert key a s)

end

end PredicateSearch.Keyed
