import PredicateSearch.Proofs.Settings.Parting

namespace PredicateSearch

namespace Expansion

variable {env : Environment}

theorem expandFrom_of_notMem {s : List Char} (h : '\x7d' ∉ s) : expandFrom env none s = s :=
  expandFrom_text (p := .last s) (not_finds_of_notMem h) env

/-- Nothing behind the last closing brace is changed, whatever stands in front of it. -/
theorem expandFrom_append_of_notMem {t : List Char} (ht : '\x7d' ∉ t) (s : List Char) :
    expandFrom env none (s ++ t) = expandFrom env none s ++ t := by
  induction scanned s with
  | nil => exact expandFrom_of_notMem ht
  | @char c s hc _ ih =>
      by_cases ho : opening <+: c :: (s ++ t)
      · -- An opening across the seam is one that is not closed.
        obtain ⟨rfl, hb⟩ := opening_prefix_cons.1 ho
        cases s with
        | nil => exact expandFrom_of_notMem (by simpa using ht)
        | cons d s => exact (hc (opening_prefix_cons.2 ⟨rfl, hb⟩)).elim
      · rw [List.cons_append, expandFrom_cons ho, ih, expandFrom_cons hc, List.cons_append]
  | @unclosed n hn =>
      rw [expandFrom_unclosed hn]
      exact expandFrom_of_notMem (by simp [opening, hn, ht])
  | empty _ ih => rw [List.append_assoc, expandFrom_empty, ih, expandFrom_empty, List.append_assoc]
  | named hn _ ih => rw [List.append_assoc, expandFrom_reference hn, ih, expandFrom_reference hn, List.append_assoc]

theorem expandFrom_append_of_noOpening {u w : List Char} (hu : ¬ opening <:+: u) (hw : w.head? ≠ some '\x7b') :
    expandFrom env none (u ++ w) = u ++ expandFrom env none w := by
  induction u with
  | nil => rfl
  | cons c u ih =>
      have hc : ¬ opening <+: c :: (u ++ w) := by
        intro h
        obtain ⟨rfl, hb⟩ := opening_prefix_cons.1 h
        cases u with
        | nil => exact hw hb
        | cons d u =>
            have hp : opening <+: '$' :: d :: u := opening_prefix_cons.2 ⟨rfl, hb⟩
            exact hu hp.isInfix
      rw [List.cons_append, expandFrom_cons hc, ih fun h => hu (h.trans (List.suffix_cons c u).isInfix),
        List.cons_append]

end Expansion

namespace Environment

open Expansion

variable {env : Environment}

theorem toList_expand (text : String) : (env.expand text).toList = expandFrom env none text.toList := by
  rw [expand, String.toList_ofList]

theorem expand_append_of_notMem {t : String} (ht : '\x7d' ∉ t.toList) (s : String) :
    env.expand (s ++ t) = env.expand s ++ t := by
  rw [← String.toList_inj, toList_expand, String.toList_append, expandFrom_append_of_notMem ht,
    String.toList_append, toList_expand]

theorem toList_reference (n : String) : ("$\x7b" ++ n ++ "\x7d").toList = reference n.toList := by
  rw [String.toList_append, String.toList_append]
  rfl

theorem valueOf_toList (n : String) : valueOf env n.toList = ((env n).getD ("$\x7b" ++ n ++ "\x7d")).toList := by
  rw [valueOf, String.ofList_toList]
  cases env n with
  | none => exact (toList_reference n).symm
  | some v => rfl

theorem toList_reference_append (u n t : String) :
    (u ++ "$\x7b" ++ n ++ "\x7d" ++ t).toList = u.toList ++ (reference n.toList ++ t.toList) := by
  rw [← toList_reference]
  simp only [String.toList_append, List.append_assoc]

theorem toList_expand_opened {u : String} (hu : ¬ opening <:+: u.toList) (n t : String) :
    (env.expand (u ++ "$\x7b" ++ n ++ "\x7d" ++ t)).toList =
      u.toList ++ expandFrom env none (reference n.toList ++ t.toList) := by
  rw [toList_expand, toList_reference_append,
    expandFrom_append_of_noOpening hu (by simp [reference, opening])]

theorem expand_reference {u n : String} (hu : ¬ opening <:+: u.toList) (hn : IsName n.toList) (t : String) :
    env.expand (u ++ "$\x7b" ++ n ++ "\x7d" ++ t) =
      u ++ (env n).getD ("$\x7b" ++ n ++ "\x7d") ++ env.expand t := by
  rw [← String.toList_inj, toList_expand_opened hu, expandFrom_reference hn, valueOf_toList, ← toList_expand,
    String.toList_append, String.toList_append, List.append_assoc]

theorem expand_empty {u : String} (hu : ¬ opening <:+: u.toList) (t : String) :
    env.expand (u ++ "$\x7b\x7d" ++ t) = u ++ "$\x7b\x7d" ++ env.expand t := by
  have hr : u ++ "$\x7b\x7d" = u ++ "$\x7b" ++ "" ++ "\x7d" := by
    rw [String.append_assoc, String.append_assoc]
    rfl
  have hn : "".toList = [] := rfl
  rw [← String.toList_inj, hr, toList_expand_opened hu, toList_reference_append, hn, expandFrom_empty, toList_expand]

theorem expand_unclosed {t : String} (ht : '\x7d' ∉ t.toList) (u : String) :
    env.expand (u ++ "$\x7b" ++ t) = env.expand u ++ "$\x7b" ++ t := by
  rw [String.append_assoc, String.append_assoc]
  exact expand_append_of_notMem (by simpa using ht) u

theorem isName_nested {a b : String} (ha : '\x7d' ∉ a.toList) (hb : '\x7d' ∉ b.toList) :
    IsName (a ++ "$\x7b" ++ b).toList where
  ne_nil := by simp
  notMem := by simp [ha, hb]

/-- A text has its references in one way only, each the leftmost that is left, and they are what values are put in
for. What stands between them stays as it is, and so does what is not closed or has no name; an opening within a
reference is part of the name. -/
theorem expand_one_pass :
    (∀ text : String, ∃! p : Parting, p.text = text.toList ∧ p.IsLeftmost) ∧
    ∀ env : Environment,
      (∀ (text : String) (p : Parting), p.text = text.toList → p.IsLeftmost →
        (env.expand text).toList = p.fill env) ∧
      (∀ u t : String, ¬ opening <:+: u.toList →
        env.expand (u ++ "$\x7b\x7d" ++ t) = u ++ "$\x7b\x7d" ++ env.expand t) ∧
      (∀ u t : String, '\x7d' ∉ t.toList → env.expand (u ++ "$\x7b" ++ t) = env.expand u ++ "$\x7b" ++ t) ∧
      ∀ u a b t : String, ¬ opening <:+: u.toList → '\x7d' ∉ a.toList → '\x7d' ∉ b.toList →
        env.expand (u ++ "$\x7b" ++ (a ++ "$\x7b" ++ b) ++ "\x7d" ++ t) =
          u ++ (env (a ++ "$\x7b" ++ b)).getD ("$\x7b" ++ (a ++ "$\x7b" ++ b) ++ "\x7d") ++ env.expand t := by
  refine ⟨fun text => ?_, fun env => ⟨fun text p ht hp => ?_, ?_, ?_, ?_⟩⟩
  · obtain ⟨p, ht, hp, -⟩ := exists_parting text.toList
    exact ⟨p, ⟨ht, hp⟩, fun q ⟨hq, hl⟩ => hl.unique hp (hq.trans ht.symm)⟩
  · rw [toList_expand, ← ht, expandFrom_text hp]
  · intro u t hu
    exact expand_empty hu t
  · intro u t ht
    exact expand_unclosed ht u
  · intro u a b t hu ha hb
    exact expand_reference hu (isName_nested ha hb) t

/-- A value that looks like a reference stays as it is put in. -/
theorem expand_one_pass_value :
    let env : Environment := fun n => if n = "A" then some "$\x7bB\x7d" else none
    env.expand "$$\x7bA\x7d$\x7b\x7d$\x7bB\n$\x7bA\x7d$\x7b" = "$$\x7bB\x7d$\x7b\x7d$\x7bB\n$\x7bA\x7d$\x7b" ∧
      env.expand ("\x7b$" ++ "$\x7b" ++ ("A" ++ "$\x7b" ++ "A") ++ "\x7d" ++ "$\x7bA\x7d") =
        "\x7b$$\x7bA$\x7bA\x7d$\x7bB\x7d" := by
  intro env
  obtain ⟨-, h⟩ := expand_one_pass
  obtain ⟨hf, -, -, hn⟩ := h env
  have hp : (Parting.step ['$'] ['A'] (.step ['$', '\x7b', '\x7d'] "B\n$\x7bA".toList (.last opening))).IsLeftmost :=
    ⟨⟨by decide, by decide⟩, fun v => finds_cons (by decide), ⟨by decide, by decide⟩, fun v => finds_empty,
      not_finds_of_notMem (by decide)⟩
  refine ⟨String.toList_inj.1 ((hf _ _ (by decide) hp).trans (by decide)), ?_⟩
  exact (hn "\x7b$" "A" "A" "$\x7bA\x7d" (by decide) (by decide) (by decide)).trans (by decide)

/-! Expanding once more -/

/-- Values without any of the characters that make a reference. -/
def IsClean (env : Environment) : Prop :=
  ∀ n v, env n = some v → v ≠ "" ∧ '$' ∉ v.toList ∧ '\x7b' ∉ v.toList ∧ '\x7d' ∉ v.toList

theorem IsClean.isSeamless {env : Environment} (h : env.IsClean) : env.IsSeamless := by
  intro n v hv
  obtain ⟨hne, hd, hb, -⟩ := h n v hv
  exact ⟨by simpa using hne, hd, fun he => hb (List.mem_of_head? he)⟩

/-- Expanding with one environment and then with another is expanding with both at once. -/
theorem expand_expand {env : Environment} (h : env.IsSeamless) (env' : Environment) (text : String) :
    env'.expand (env.expand text) = (env.withDefaults env').expand text := by
  obtain ⟨p, hp⟩ := exists_leaves h text.toList
  rw [← String.toList_inj, toList_expand, toList_expand, toList_expand, hp.fill, ← hp.text, expandFrom_text hp.leftmost]

theorem names_of_expand {env : Environment} (h : env.IsSeamless) {text : String} {p : Parting}
    (ht : p.text = (env.expand text).toList) (hp : p.IsLeftmost) :
    ∀ n ∈ p.names, env (String.ofList n) = none := by
  obtain ⟨q, hq⟩ := exists_leaves h text.toList
  obtain rfl := hp.unique hq.leftmost (by rw [ht, toList_expand, hq.text])
  exact hq.names

/-- A text that was expanded has only references left that are not set, so that it stays as it is when it is expanded
again. -/
theorem expand_idem {env : Environment} (h : env.IsClean) (text : String) :
    env.expand (env.expand text) = env.expand text ∧
      ∀ p : Parting, p.text = (env.expand text).toList → p.IsLeftmost →
        ∀ n ∈ p.names, env (String.ofList n) = none := by
  constructor
  · rw [expand_expand h.isSeamless, withDefaults_self]
  · intro p ht hp
    exact names_of_expand h.isSeamless ht hp

/-- An empty value would bring a dollar sign and a brace together. -/
example :
    let env : Environment := fun n => if n = "A" then some "" else if n = "B" then some "b" else none
    env.expand "$$\x7bA\x7d\x7bB\x7d" = "$\x7bB\x7d" ∧ env.expand "$\x7bB\x7d" = "b" := by
  decide

/-- Dollar signs and openings stand on both sides of what is put in. -/
theorem expand_idem_seams :
    let env : Environment := fun n => if n = "A" ∨ n = "x$\x7bB" then some "a b" else none
    env.IsClean ∧
      env.expand (env.expand "$$\x7bA\x7d\x7bA\x7d$\x7bx$\x7bB\x7d$\x7bC\x7d$\x7bA") =
        "$a b\x7bA\x7da b$\x7bC\x7d$\x7bA" := by
  intro env
  have h : env.IsClean := by
    intro n v hv
    obtain ⟨-, rfl⟩ : (n = "A" ∨ n = "x$\x7bB") ∧ "a b" = v := by
      have hv' : (if n = "A" ∨ n = "x$\x7bB" then some "a b" else none) = some v := hv
      split at hv'
      · next hn => exact ⟨hn, Option.some.inj hv'⟩
      · cases hv'
    decide
  exact ⟨h, (expand_idem h _).1.trans (by decide)⟩

end Environment

end PredicateSearch
