import Mathlib.Data.List.Infix
import PredicateSearch.Settings.Expansion

namespace PredicateSearch

namespace Environment

def unset : Environment := fun _ => none

/-- The values of the first, and where it has none those of the second. -/
def withDefaults (env env' : Environment) : Environment := fun n => (env n).or (env' n)

theorem withDefaults_self (env : Environment) : env.withDefaults env = env := by
  funext n
  exact Option.or_self

theorem unset_withDefaults (env : Environment) : unset.withDefaults env = env := rfl

/-- No value can open a reference, neither by itself nor with the text around it. A closing brace does no harm,
since what is not closed has no reference behind it. -/
def IsSeamless (env : Environment) : Prop :=
  ∀ n v, env n = some v → v.toList ≠ [] ∧ '$' ∉ v.toList ∧ v.toList.head? ≠ some '\x7b'

end Environment

namespace Expansion

open Environment

variable {env : Environment}

theorem opening_prefix_cons {c : Char} {s : List Char} :
    opening <+: c :: s ↔ c = '$' ∧ s.head? = some '\x7b' := by
  rw [opening, List.cons_prefix_cons, eq_comm]
  cases s <;> simp [eq_comm]

structure IsName (n : List Char) : Prop where
  ne_nil : n ≠ []
  notMem : '\x7d' ∉ n

/-! What the pass does at each place of a text -/

theorem expandFrom_cons {c : Char} {s : List Char} (h : ¬ opening <+: c :: s) :
    expandFrom env none (c :: s) = c :: expandFrom env none s := by
  rw [expandFrom]
  rintro t rfl rfl
  exact h ⟨t, rfl⟩

theorem expandFrom_opened {n : List Char} (h : '\x7d' ∉ n) (before : List Char) :
    expandFrom env (some before) n = opening ++ (before.reverse ++ n) := by
  induction n generalizing before with
  | nil => simp [expandFrom]
  | cons c n ih =>
      rw [List.mem_cons, not_or] at h
      rw [expandFrom, if_pos (Ne.symm h.1), ih h.2]
      simp

theorem expandFrom_closed {n : List Char} (h : '\x7d' ∉ n) (before s : List Char) :
    expandFrom env (some before) (n ++ '\x7d' :: s) =
      (if before.reverse ++ n = [] then reference [] else valueOf env (before.reverse ++ n)) ++
        expandFrom env none s := by
  induction n generalizing before with
  | nil =>
      rw [List.nil_append, expandFrom, if_neg (by simp), List.append_nil]
      by_cases hb : before = [] <;> simp [hb]
  | cons c n ih =>
      rw [List.mem_cons, not_or] at h
      rw [List.cons_append, expandFrom, if_pos (Ne.symm h.1), ih h.2]
      simp

theorem expandFrom_unclosed {n : List Char} (h : '\x7d' ∉ n) :
    expandFrom env none (opening ++ n) = opening ++ n :=
  expandFrom_opened h []

theorem expandFrom_empty (s : List Char) :
    expandFrom env none (reference [] ++ s) = reference [] ++ expandFrom env none s :=
  expandFrom_closed (List.not_mem_nil) [] s

theorem expandFrom_reference {n : List Char} (hn : IsName n) (s : List Char) :
    expandFrom env none (reference n ++ s) = valueOf env n ++ expandFrom env none s := by
  have hr : reference n ++ s = opening ++ (n ++ '\x7d' :: s) := by simp [reference]
  have ho : expandFrom env none (opening ++ (n ++ '\x7d' :: s)) = expandFrom env (some []) (n ++ '\x7d' :: s) := rfl
  rw [hr, ho, expandFrom_closed hn.notMem, List.reverse_nil, List.nil_append, if_neg hn.ne_nil]

/-- A text as the pass goes through it. -/
inductive Scanned : List Char → Prop
  | nil : Scanned []
  | char {c s} : ¬ opening <+: c :: s → Scanned s → Scanned (c :: s)
  | unclosed {n} : '\x7d' ∉ n → Scanned (opening ++ n)
  | empty {s} : Scanned s → Scanned (reference [] ++ s)
  | named {n s} : IsName n → Scanned s → Scanned (reference n ++ s)

theorem scanned (s : List Char) : Scanned s := by
  induction hk : s.length using Nat.strongRecOn generalizing s with
  | ind k ih =>
      subst hk
      cases s with
      | nil => exact .nil
      | cons c s =>
          by_cases ho : opening <+: c :: s
          · obtain ⟨t, ht⟩ := ho
            rw [← ht] at ih ⊢
            by_cases hm : '\x7d' ∈ t
            · obtain ⟨n, s, rfl, hn⟩ := List.eq_append_cons_of_mem hm
              have hs : Scanned s := ih _ (by simp; omega) s rfl
              have hr : opening ++ (n ++ '\x7d' :: s) = reference n ++ s := by simp [reference]
              rw [hr]
              by_cases hne : n = []
              · exact hne ▸ .empty hs
              · exact .named ⟨hne, hn⟩ hs
            · exact .unclosed hm
          · exact .char ho (ih _ (by simp) s rfl)

/-! A text as the references in it and what stands between them -/

inductive Parting where
  | last (gap : List Char)
  | step (gap name : List Char) (next : Parting)
  deriving DecidableEq, Repr

/-- Behind `before` a reference stands in the text. -/
def Finds (before s : List Char) : Prop := ∃ n t, IsName n ∧ s = before ++ (reference n ++ t)

namespace Parting

def text : Parting → List Char
  | last u => u
  | step u n p => u ++ (reference n ++ p.text)

def fill (env : Environment) : Parting → List Char
  | last u => u
  | step u n p => u ++ (valueOf env n ++ p.fill env)

def names : Parting → List (List Char)
  | last _ => []
  | step _ n p => n :: p.names

/-- Each reference is the leftmost one of what follows the reference before it, and behind the last one there
is none. -/
def IsLeftmost : Parting → Prop
  | last u => ∀ v, ¬ Finds v u
  | step u n p => IsName n ∧ (∀ v, Finds v (u ++ (reference n ++ p.text)) → u.length ≤ v.length) ∧ p.IsLeftmost

/-- Puts a text in front of the first gap. -/
def prepend (w : List Char) : Parting → Parting
  | last u => last (w ++ u)
  | step u n p => step (w ++ u) n p

theorem text_prepend (w : List Char) (p : Parting) : (p.prepend w).text = w ++ p.text := by
  cases p <;> simp [prepend, text]

theorem fill_prepend (w : List Char) (p : Parting) : (p.prepend w).fill env = w ++ p.fill env := by
  cases p <;> simp [prepend, fill]

theorem names_prepend (w : List Char) (p : Parting) : (p.prepend w).names = p.names := by
  cases p <;> rfl

end Parting

theorem Finds.of_append {w s v : List Char} (h : Finds v (w ++ s)) (hl : w.length ≤ v.length) :
    ∃ v', v = w ++ v' ∧ Finds v' s := by
  obtain ⟨n, t, hn, he⟩ := h
  obtain ⟨v', rfl⟩ := List.prefix_of_prefix_length_le (List.prefix_append w s) ⟨_, he.symm⟩ hl
  rw [List.append_assoc] at he
  exact ⟨v', rfl, n, t, hn, List.append_cancel_left he⟩

theorem Parting.IsLeftmost.prepend {w : List Char} {p : Parting} (h : p.IsLeftmost)
    (hw : ∀ v, Finds v (w ++ p.text) → w.length ≤ v.length) : (p.prepend w).IsLeftmost := by
  cases p with
  | last u =>
      intro v hv
      obtain ⟨v', -, hv'⟩ := hv.of_append (hw v hv)
      exact h v' hv'
  | step u n p =>
      obtain ⟨hn, hl, hp⟩ := h
      refine ⟨hn, fun v hv => ?_, hp⟩
      rw [List.append_assoc] at hv
      obtain ⟨v', rfl, hv'⟩ := hv.of_append (hw v hv)
      have := hl v' hv'
      simp only [List.length_append]
      omega

theorem not_finds_of_notMem {s : List Char} (h : '\x7d' ∉ s) (v : List Char) : ¬ Finds v s := by
  rintro ⟨n, t, -, rfl⟩
  simp [reference] at h

theorem finds_cons {c : Char} {s v : List Char} (hc : ¬ opening <+: c :: s) (h : Finds v ([c] ++ s)) :
    [c].length ≤ v.length := by
  cases v with
  | nil =>
      obtain ⟨n, t, -, he⟩ := h
      exact absurd ⟨n ++ '\x7d' :: t, by simpa [reference] using he.symm⟩ hc
  | cons d v => simp

theorem finds_empty {s v : List Char} (h : Finds v (reference [] ++ s)) : (reference []).length ≤ v.length := by
  obtain ⟨n, t, hn, he⟩ := h
  match v, he with
  | [], he =>
      obtain ⟨c, n, rfl⟩ := List.exists_cons_of_ne_nil hn.ne_nil
      have hc : c ≠ '\x7d' := fun hc => hn.notMem (by simp [hc])
      simp [reference, opening, Ne.symm hc] at he
  | [_], he => simp [reference, opening] at he
  | [_, _], he => simp [reference, opening] at he
  | _ :: _ :: _ :: v, _ => simp [reference, opening]

theorem append_closing_inj {n n' s s' : List Char} (h : '\x7d' ∉ n) (h' : '\x7d' ∉ n')
    (he : n ++ '\x7d' :: s = n' ++ '\x7d' :: s') : n = n' ∧ s = s' := by
  induction n generalizing n' with
  | nil =>
      cases n' with
      | nil => exact ⟨rfl, (List.cons.inj he).2⟩
      | cons c n' => exact absurd (List.cons.inj he).1 fun hc => h' (hc ▸ List.mem_cons_self)
  | cons c n ih =>
      rw [List.mem_cons, not_or] at h
      cases n' with
      | nil => exact absurd (List.cons.inj he).1 (Ne.symm h.1)
      | cons d n' =>
          rw [List.mem_cons, not_or] at h'
          obtain ⟨rfl, ht⟩ := List.cons.inj he
          obtain ⟨rfl, rfl⟩ := ih h.2 h'.2 ht
          exact ⟨rfl, rfl⟩

theorem reference_inj {n n' s s' : List Char} (hn : IsName n) (hn' : IsName n')
    (he : reference n ++ s = reference n' ++ s') : n = n' ∧ s = s' := by
  simp only [reference, List.append_assoc, List.singleton_append] at he
  exact append_closing_inj hn.notMem hn'.notMem (List.append_cancel_left he)

theorem Parting.IsLeftmost.unique {p q : Parting} (hp : p.IsLeftmost) (hq : q.IsLeftmost)
    (h : p.text = q.text) : p = q := by
  induction p generalizing q with
  | last u =>
      cases q with
      | last u' => exact congrArg last h
      | step u' n' q => exact absurd ⟨n', q.text, hq.1, h⟩ (hp u')
  | step u n p ih =>
      obtain ⟨hn, hl, hp⟩ := hp
      cases q with
      | last u' => exact absurd ⟨n, p.text, hn, h.symm⟩ (hq u)
      | step u' n' q =>
          obtain ⟨hn', hl', hq⟩ := hq
          have hu : u.length = u'.length :=
            Nat.le_antisymm (hl u' ⟨n', q.text, hn', h⟩) (hl' u ⟨n, p.text, hn, h.symm⟩)
          obtain ⟨rfl, hr⟩ := List.append_inj h hu
          obtain ⟨rfl, ht⟩ := reference_inj hn hn' hr
          rw [ih hp hq ht]

theorem valueOf_of_none {n : List Char} (h : env (String.ofList n) = none) : valueOf env n = reference n := by
  rw [valueOf, h]

theorem valueOf_of_some {n : List Char} {v : String} (h : env (String.ofList n) = some v) :
    valueOf env n = v.toList := by
  rw [valueOf, h]

theorem finds_of_noDollar {w s v : List Char} (hw : '$' ∉ w) (h : Finds v (w ++ s)) : w.length ≤ v.length := by
  by_contra hl
  obtain ⟨n, t, -, he⟩ := h
  obtain ⟨u, rfl⟩ := List.prefix_of_prefix_length_le ⟨_, he.symm⟩ (List.prefix_append w s) (Nat.le_of_not_le hl)
  rw [List.append_assoc] at he
  cases u with
  | nil => exact hl (by simp)
  | cons c u =>
      obtain ⟨rfl, -⟩ := List.cons.inj (List.append_cancel_left he)
      exact hw (by simp)

/-- What is put in does not bring a brace behind a dollar sign. -/
theorem head?_expandFrom (h : env.IsSeamless) {s : List Char}
    (hs : (expandFrom env none s).head? = some '\x7b') : s.head? = some '\x7b' := by
  cases scanned s with
  | nil => simp [expandFrom] at hs
  | char hc _ => simpa [expandFrom_cons hc] using hs
  | unclosed hn => simpa [expandFrom_unclosed hn] using hs
  | empty _ =>
      rw [expandFrom_empty] at hs
      simp [reference, opening] at hs
  | @named n s hn _ =>
      rw [expandFrom_reference hn] at hs
      cases hv : env (String.ofList n) with
      | none => simp [valueOf_of_none hv, reference, opening] at hs
      | some v =>
          obtain ⟨hne, -, hb⟩ := h _ v hv
          obtain ⟨c, t, ht⟩ := List.exists_cons_of_ne_nil hne
          rw [valueOf_of_some hv, ht, List.cons_append, List.head?_cons] at hs
          rw [ht, List.head?_cons] at hb
          exact absurd hs hb

/-- The references that expansion leaves, where they stood. None of them is set, and if they are set later the text
is as if they had been from the start. -/
structure Leaves (env : Environment) (s : List Char) (p : Parting) : Prop where
  text : p.text = expandFrom env none s
  leftmost : p.IsLeftmost
  names : ∀ n ∈ p.names, env (String.ofList n) = none
  fill : ∀ env' : Environment, expandFrom (env.withDefaults env') none s = p.fill env'

theorem leaves_last {u : List Char} (hu : '\x7d' ∉ u) (he : ∀ env : Environment, expandFrom env none u = u) :
    Leaves env u (.last u) where
  text := (he env).symm
  leftmost := not_finds_of_notMem hu
  names := by simp [Parting.names]
  fill env' := he (env.withDefaults env')

theorem Leaves.prepend {s t w : List Char} {p : Parting} (h : Leaves env s p)
    (he : expandFrom env none t = w ++ expandFrom env none s)
    (hf : ∀ env' : Environment,
      expandFrom (env.withDefaults env') none t = w ++ expandFrom (env.withDefaults env') none s)
    (hw : ∀ v, Finds v (w ++ p.text) → w.length ≤ v.length) : Leaves env t (p.prepend w) where
  text := by rw [p.text_prepend, h.text, he]
  leftmost := h.leftmost.prepend hw
  names := by
    rw [p.names_prepend]
    exact h.names
  fill env' := by rw [hf, h.fill, p.fill_prepend]

theorem Leaves.step {s n : List Char} {p : Parting} (h : Leaves env s p) (hn : IsName n)
    (hv : env (String.ofList n) = none) : Leaves env (reference n ++ s) (.step [] n p) where
  text := by
    rw [expandFrom_reference hn, valueOf_of_none hv, ← h.text]
    rfl
  leftmost := ⟨hn, fun v _ => Nat.zero_le _, h.leftmost⟩
  names := List.forall_mem_cons.2 ⟨hv, h.names⟩
  fill env' := by
    have ho : valueOf (env.withDefaults env') n = valueOf env' n := by
      rw [valueOf, valueOf, withDefaults, hv, Option.none_or]
    rw [expandFrom_reference hn, ho, h.fill]
    rfl

theorem exists_leaves (h : env.IsSeamless) (s : List Char) : ∃ p, Leaves env s p := by
  induction scanned s with
  | nil => exact ⟨.last [], leaves_last List.not_mem_nil fun env => rfl⟩
  | @char c s hc _ ih =>
      obtain ⟨p, hp⟩ := ih
      -- A dollar sign that is kept does not meet a brace that was put in behind it.
      have hd : ¬ opening <+: c :: p.text := by
        intro hx
        obtain ⟨rfl, hb⟩ := opening_prefix_cons.1 hx
        exact hc (opening_prefix_cons.2 ⟨rfl, head?_expandFrom h (hp.text ▸ hb)⟩)
      exact ⟨p.prepend [c], hp.prepend (expandFrom_cons hc) (fun env' => expandFrom_cons hc) fun v => finds_cons hd⟩
  | @unclosed m hm =>
      have ho : '\x7d' ∉ opening ++ m := by simpa [opening] using hm
      exact ⟨.last (opening ++ m), leaves_last ho fun env => expandFrom_unclosed hm⟩
  | @empty s _ ih =>
      obtain ⟨p, hp⟩ := ih
      exact ⟨p.prepend (reference []),
        hp.prepend (expandFrom_empty s) (fun env' => expandFrom_empty s) fun v => finds_empty⟩
  | @named m s hm _ ih =>
      obtain ⟨p, hp⟩ := ih
      cases hv : env (String.ofList m) with
      | none => exact ⟨.step [] m p, hp.step hm hv⟩
      | some v =>
          have he : expandFrom env none (reference m ++ s) = v.toList ++ expandFrom env none s := by
            rw [expandFrom_reference hm, valueOf_of_some hv]
          have hf (env' : Environment) : expandFrom (env.withDefaults env') none (reference m ++ s) =
              v.toList ++ expandFrom (env.withDefaults env') none s := by
            have ho : env.withDefaults env' (String.ofList m) = some v := by rw [withDefaults, hv, Option.some_or]
            rw [expandFrom_reference hm, valueOf_of_some ho]
          exact ⟨p.prepend v.toList, hp.prepend he hf fun u => finds_of_noDollar (h _ v hv).2.1⟩

theorem expandFrom_unset (s : List Char) : expandFrom unset none s = s := by
  induction scanned s with
  | nil => rfl
  | char hc _ ih => rw [expandFrom_cons hc, ih]
  | unclosed hn => exact expandFrom_unclosed hn
  | empty _ ih => rw [expandFrom_empty, ih]
  | named hn _ ih => rw [expandFrom_reference hn, ih, valueOf_of_none rfl]

/-- The pass finds the references from left to right and puts the values in their places. -/
theorem exists_parting (s : List Char) :
    ∃ p : Parting, p.text = s ∧ p.IsLeftmost ∧ ∀ env, expandFrom env none s = p.fill env := by
  have hu : unset.IsSeamless := fun n v hv => nomatch hv
  obtain ⟨p, hp⟩ := exists_leaves hu s
  exact ⟨p, hp.text.trans (expandFrom_unset s), hp.leftmost, fun env => unset_withDefaults env ▸ hp.fill env⟩

theorem expandFrom_text {p : Parting} (h : p.IsLeftmost) (env : Environment) :
    expandFrom env none p.text = p.fill env := by
  obtain ⟨q, ht, hq, hf⟩ := exists_parting p.text
  rw [hf, hq.unique h ht]

end Expansion

end PredicateSearch
