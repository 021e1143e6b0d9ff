import Mathlib.Data.List.Forall2

namespace PredicateSearch

/-! How the parts of a computation that may fail show in its outcome -/

section

variable {ε ε' α β : Type}

theorem bind_eq_ok {x : Except ε α} {f : α → Except ε β} {b : β} :
    x >>= f = .ok b ↔ ∃ a, x = .ok a ∧ f a = .ok b := by
  cases x with
  | error e => simp [bind, Except.bind]
  | ok a => simp [bind, Except.bind]

theorem bind_eq_error {x : Except ε α} {f : α → Except ε β} {e : ε} :
    x >>= f = .error e ↔ x = .error e ∨ ∃ a, x = .ok a ∧ f a = .error e := by
  cases x with
  | error e => simp [bind, Except.bind]
  | ok a => simp [bind, Except.bind]

theorem map_eq_ok {f : α → β} {x : Except ε α} {b : β} : x.map f = .ok b ↔ ∃ a, x = .ok a ∧ f a = b := by
  cases x <;> simp [Except.map]

theorem map_eq_error {f : α → β} {x : Except ε α} {e : ε} : x.map f = .error e ↔ x = .error e := by
  cases x <;> simp [Except.map]

theorem mapError_eq_ok {f : ε → ε'} {x : Except ε α} {a : α} : x.mapError f = .ok a ↔ x = .ok a := by
  cases x <;> simp [Except.mapError]

theorem mapError_bind {f : ε → ε'} {x : Except ε α} {g : α → Except ε β} :
    (x >>= g).mapError f = x.mapError f >>= fun a => (g a).mapError f := by
  cases x <;> rfl

theorem map_bind_of {α' β' : Type} {x : Except ε α} {f : α → Except ε β} {g : β → β'} {h : α → α'}
    {f' : α' → Except ε β'} (hf : ∀ a, (f a).map g = f' (h a)) : (x >>= f).map g = x.map h >>= f' := by
  cases x with
  | error e => rfl
  | ok a => exact hf a

/-- Goes well if there is no fault, and fails with the first one else. -/
def FailsFirst (x : Except ε α) : List ε → Prop
  | [] => ∃ a, x = .ok a
  | e :: _ => x = .error e

theorem FailsFirst.bind {x : Except ε α} {f : α → Except ε β} {es fs : List ε} (hx : FailsFirst x es)
    (hf : ∀ a, x = .ok a → FailsFirst (f a) fs) : FailsFirst (x >>= f) (es ++ fs) := by
  cases es with
  | nil =>
      obtain ⟨a, rfl⟩ := hx
      exact hf a rfl
  | cons e es =>
      have he : x = .error e := hx
      rw [he]
      rfl

theorem FailsFirst.map {x : Except ε α} {es : List ε} (hx : FailsFirst x es) (f : α → β) :
    FailsFirst (x.map f) es := by
  cases es with
  | nil =>
      obtain ⟨a, rfl⟩ := hx
      exact ⟨f a, rfl⟩
  | cons e es => exact map_eq_error.2 hx

/-! A list taken through such a computation -/

theorem mapM_eq_ok {f : α → Except ε β} {as : List α} {bs : List β} :
    as.mapM f = .ok bs ↔ List.Forall₂ (fun a b => f a = .ok b) as bs := by
  induction as generalizing bs with
  | nil => simp [pure, Except.pure, eq_comm]
  | cons a as ih =>
      simp only [List.mapM_cons, bind_eq_ok, ih, List.forall₂_cons_left_iff]
      constructor
      · rintro ⟨b, hb, cs, hcs, he⟩
        exact ⟨b, cs, hb, hcs, (Except.ok.inj he).symm⟩
      · rintro ⟨b, cs, hb, hcs, rfl⟩
        exact ⟨b, hb, cs, hcs, rfl⟩

/-- The first member that fails makes the whole fail. -/
theorem mapM_eq_error {f : α → Except ε β} {as : List α} {e : ε} :
    as.mapM f = .error e ↔
      ∃ us a vs, as = us ++ a :: vs ∧ (∀ u ∈ us, ∃ b, f u = .ok b) ∧ f a = .error e := by
  induction as with
  | nil => simp [pure, Except.pure]
  | cons a as ih =>
      simp only [List.mapM_cons, bind_eq_error, ih]
      constructor
      · rintro (ha | ⟨b, hb, ⟨us, c, vs, rfl, hus, hc⟩ | ⟨_, _, hp⟩⟩)
        · exact ⟨[], a, as, rfl, by simp, ha⟩
        · exact ⟨a :: us, c, vs, rfl, List.forall_mem_cons.2 ⟨⟨b, hb⟩, hus⟩, hc⟩
        · cases hp
      · rintro ⟨_ | ⟨u, us⟩, c, vs, heq, hus, hc⟩
        · cases heq
          exact .inl hc
        · cases heq
          obtain ⟨⟨b, hb⟩, hus⟩ := List.forall_mem_cons.1 hus
          exact .inr ⟨b, hb, .inl ⟨us, c, vs, rfl, hus, hc⟩⟩

end

theorem forall₂_congr_of_mem {α β : Type} {R S : α → β → Prop} {as : List α} {bs : List β}
    (h : ∀ a ∈ as, ∀ b, R a b ↔ S a b) : List.Forall₂ R as bs ↔ List.Forall₂ S as bs := by
  induction as generalizing bs with
  | nil => simp
  | cons a as ih =>
      obtain ⟨ha, has⟩ := List.forall_mem_cons.1 h
      simp only [List.forall₂_cons_left_iff, ha, ih has]

theorem exists_of_forall₂ {α β : Type} {R : α → β → Prop} {us : List α} {ls : List β}
    (h : List.Forall₂ R us ls) : ∀ l ∈ ls, ∃ u ∈ us, R u l := by
  induction h with
  | nil => simp
  | @cons u l us ls hr _ ih =>
      intro m hm
      rcases List.mem_cons.1 hm with rfl | hm
      · exact ⟨u, by simp, hr⟩
      · obtain ⟨w, hw, hr⟩ := ih m hm
        exact ⟨w, List.mem_cons_of_mem u hw, hr⟩

theorem map_eq_map_of_forall₂ {α β γ : Type} {R : α → β → Prop} {f : α → γ} {g : β → γ} {us : List α} {ls : List β}
    (h : List.Forall₂ R us ls) (hR : ∀ u l, R u l → g l = f u) : ls.map g = us.map f := by
  induction h with
  | nil => rfl
  | cons hr _ ih => rw [List.map_cons, List.map_cons, hR _ _ hr, ih]

theorem exists_forall₂ {α β : Type} {R : α → β → Prop} {us : List α} :
    (∃ ls, List.Forall₂ R us ls) ↔ ∀ u ∈ us, ∃ l, R u l := by
  induction us with
  | nil => simp
  | cons u us ih =>
      simp only [List.forall₂_cons_left_iff, List.forall_mem_cons, ← ih]
      constructor
      · rintro ⟨_, l, ls, hl, hls, rfl⟩
        exact ⟨⟨l, hl⟩, ls, hls⟩
      · rintro ⟨⟨l, hl⟩, ls, hls⟩
        exact ⟨_, l, ls, hl, hls, rfl⟩

end PredicateSearch
