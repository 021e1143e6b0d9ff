import Mathlib.Data.List.Induction
import PredicateSearch.Proofs.Keyed
import PredicateSearch.Proofs.Order

namespace PredicateSearch.Keyed

/-! What a store has kept of the entries that were put into it one after another -/

section

variable {α : Type} (key : α → String)

def putAll (s as : List α) : List α := as.foldl (fun s a => upsert key a s) s

/-- The entry that came last under a key. -/
def latest (k : String) (as : List α) : Option α := (as.filter fun a => key a = k).getLast?

/-- Each key once, where it came first, and under it the entry that came last. -/
structure Keeps (as s : List α) : Prop where
  nodup : (s.map key).Nodup
  keys : s.map key = (as.map key).eraseDups
  found : ∀ k, find? key k s = latest key k as

end

section

variable {α : Type} {key : α → String} {as s : List α}

theorem putAll_append (s as bs : List α) : putAll key s (as ++ bs) = putAll key (putAll key s as) bs :=
  List.foldl_append

theorem latest_concat (as : List α) (a : α) (k : String) :
    latest key k (as ++ [a]) = if key a = k then some a else latest key k as := by
  by_cases hk : key a = k <;> simp [latest, hk]

theorem latest_eq_none {k : String} : latest key k as = none ↔ k ∉ as.map key := by
  simp [latest]

theorem key_of_latest {k : String} {a : α} (h : latest key k as = some a) : key a = k := by
  simpa using (List.mem_filter.1 (List.mem_of_getLast? h)).2

theorem find?_eq (k : String) (s : List α) : find? key k s = s.find? fun a => key a = k := by
  induction s with
  | nil => rfl
  | cons a s ih => by_cases hk : key a = k <;> simp [find?, hk, ih]

theorem Keeps.concat (h : Keeps key as s) (a : α) : Keeps key (as ++ [a]) (upsert key a s) where
  nodup := nodup_upsert key a h.nodup
  keys := by
    have hm : key a ∈ s.map key ↔ key a ∈ as.map key := by rw [h.keys, List.mem_eraseDups]
    rw [map_key_upsert, List.map_append, List.map_singleton, eraseDups_concat, ← h.keys]
    simp only [hm]
  found k := by rw [find?_upsert, latest_concat, h.found]

theorem keeps_putAll (as : List α) : Keeps key as (putAll key [] as) := by
  induction as using List.reverseRecOn with
  | nil => exact ⟨.nil, rfl, fun k => rfl⟩
  | append_singleton as a ih =>
      rw [putAll_append]
      exact ih.concat a

namespace Keeps

variable (h : Keeps key as s)

include h

theorem latest_of_mem {a : α} (ha : a ∈ s) : latest key (key a) as = some a := by
  rw [← h.found]
  exact find?_of_mem h.nodup ha

theorem mem_of_latest {k : String} {a : α} (ha : latest key k as = some a) : a ∈ s := by
  rw [← h.found, find?_eq] at ha
  exact List.mem_of_find?_eq_some ha

theorem isSome_find? {k : String} : (find? key k s).isSome ↔ k ∈ as.map key := by
  rw [Keyed.isSome_find?, h.keys, List.mem_eraseDups]

/-- An entry is the first of its kind if those that the names before its own stand for now are not. -/
theorem find?_eq_some {p : α → Bool} {a : α} :
    s.find? p = some a ↔
      p a ∧ latest key (key a) as = some a ∧
        ∃ us vs, (as.map key).eraseDups = us ++ key a :: vs ∧
          ∀ k ∈ us, ∀ b, latest key k as = some b → p b = false := by
  rw [List.find?_eq_some_iff_append]
  constructor
  · rintro ⟨hp, us, vs, rfl, hus⟩
    refine ⟨hp, h.latest_of_mem (by simp), us.map key, vs.map key, by simp [← h.keys], ?_⟩
    intro k hk b hb
    obtain ⟨c, hc, rfl⟩ := List.mem_map.1 hk
    have hcb := (h.latest_of_mem (by simp [hc])).symm.trans hb
    obtain rfl := Option.some.inj hcb
    simpa using hus c hc
  · rintro ⟨hp, ha, us, vs, hk, hus⟩
    -- The entries part where their names do, and the one found stands under its name.
    rw [← h.keys, List.map_eq_append_iff] at hk
    obtain ⟨bs, cs, rfl, rfl, hk⟩ := hk
    obtain ⟨c, ds, rfl, hc, rfl⟩ := List.map_eq_cons_iff.1 hk
    have hca := (h.latest_of_mem (a := c) (by simp)).symm.trans (hc ▸ ha)
    obtain rfl := Option.some.inj hca
    refine ⟨hp, bs, ds, rfl, fun b hb => ?_⟩
    simpa using hus _ (List.mem_map_of_mem hb) b (h.latest_of_mem (by simp [hb]))

theorem find?_eq_none {p : α → Bool} : s.find? p = none ↔ ∀ k a, latest key k as = some a → p a = false := by
  rw [List.find?_eq_none]
  constructor
  · intro hs k a ha
    simpa using hs a (h.mem_of_latest ha)
  · intro hs a ha
    simpa using hs _ a (h.latest_of_mem ha)

end Keeps

end

end PredicateSearch.Keyed
