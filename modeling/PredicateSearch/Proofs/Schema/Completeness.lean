import PredicateSearch.Proofs.Schema.Soundness
import PredicateSearch.Proofs.Schema.Start

namespace PredicateSearch.Schema

open Sql (stops stops_mono takeWhile_of_stops)

namespace Rule

variable {α β γ δ : Type}

/-- Reads what is written in the form just where it stands, if nothing follows that goes on with it. -/
def Takes (r : Rule α) (e : α → β) (f : Form β) (stop : Char → Bool) : Prop :=
  ∀ c b t, f c.rest b t → stops stop t = true → ∃ a d, (r c).reading = some (a, d) ∧ e a = b ∧ d.rest = t

/-- Reads what is written in the form behind a gap, and comes to the same text but for a gap. -/
def Finds (r : Rule α) (e : α → β) (f : Form β) (stop : Char → Bool) : Prop :=
  ∀ c s b t, f s b t → c.rest = afterGap s → stops stop (afterGap t) = true →
    ∃ a d, (r c).reading = some (a, d) ∧ e a = b ∧ afterGap d.rest = afterGap t

/-- Nothing is read of a text that begins otherwise. -/
def Refuses (r : Rule α) (start : Char → Bool) : Prop :=
  ∀ c, afterGap c.rest = c.rest → stops start c.rest = true → (r c).reading = none

end Rule

theorem stops_nothing (t : List Char) : stops (fun _ => false) t = true := by
  cases t <;> rfl

theorem stops_of_stops_afterGap {stop : Char → Bool} (hg : ∀ x, stop x = true → isSpace x = false ∧ x ≠ '/')
    {t : List Char} (h : stops stop (afterGap t) = true) : stops stop t = true := by
  cases t with
  | nil => rfl
  | cons x t =>
      cases hx : stop x with
      | false => simp [stops, hx]
      | true =>
          rw [afterGap_cons (hg x hx).1 (hg x hx).2] at h
          exact h

namespace Rule

variable {α β γ δ : Type} {r : Rule α} {e : α → β} {f : Form β} {stop : Char → Bool}

namespace Takes

theorem pure {a : α} {b : β} (h : e a = b) : Takes (Pure.pure a) e (Pure.pure b) stop := by
  rintro c _ _ ⟨rfl, rfl⟩ -
  exact ⟨a, c, rfl, h, rfl⟩

theorem bind {k : α → Rule γ} {e' : γ → δ} {g : β → Form δ} (hr : Takes r e f (fun _ => false))
    (hk : ∀ a, Takes (k a) e' (g (e a)) stop) : Takes (r >>= k) e' (f >>= g) stop := by
  rintro c x t ⟨b, u, hb, hx⟩ ht
  obtain ⟨a, d, ha, rfl, rfl⟩ := hr c b u hb (stops_nothing u)
  obtain ⟨y, v, hy, rfl, rfl⟩ := hk a d x t hx ht
  exact ⟨y, v, by rw [reading_bind, ha]; exact hy, rfl, rfl⟩

theorem bind_pure {h : α → γ} {e' : γ → δ} {h' : β → δ} (hr : Takes r e f stop) (he : ∀ a, e' (h a) = h' (e a)) :
    Takes (r >>= fun a => Pure.pure (h a)) e' (f >>= fun b => Pure.pure (h' b)) stop := by
  rintro c _ _ ⟨b, t, hb, rfl, rfl⟩ ht
  obtain ⟨a, d, ha, rfl, rfl⟩ := hr c b _ hb ht
  exact ⟨h a, d, by rw [reading_bind, ha]; rfl, he a, rfl⟩

theorem map {h : α → γ} {e' : γ → β} (hr : Takes r e f stop) (he : ∀ a, e' (h a) = e a) :
    Takes (r >>= fun a => Pure.pure (h a)) e' f stop := by
  intro c b t hb ht
  obtain ⟨a, d, ha, rfl, rfl⟩ := hr c b t hb ht
  exact ⟨h a, d, by rw [reading_bind, ha]; rfl, he a, rfl⟩

theorem counted (hr : Takes r e f stop) : Takes (Rule.counted r) e f stop := by
  intro c b t hb ht
  rw [reading_counted]
  exact hr c b t hb ht

theorem spanned (hr : Takes r e f stop) : Takes (Rule.spanned r) (e ∘ Prod.fst) f stop := by
  intro c b t hb ht
  obtain ⟨a, d, ha, rfl, rfl⟩ := hr c b t hb ht
  exact ⟨(a, _), d, by rw [reading_spanned, ha]; rfl, rfl, rfl⟩

/-- A gap is passed over if what comes next stands behind all of it. -/
theorem gap (hr : Takes r e f stop) (hf : f.IsTight) :
    Takes (Rule.gap >>= fun _ => r) e (Form.gap >>= fun _ => f) stop := by
  rintro c b t ⟨_, s, hs, hb⟩ ht
  have he : (skip false c.offset c.rest).rest = s := by
    rw [rest_gap, Form.Gap.afterGap_eq hs, hf s b t hb]
  obtain ⟨a, d, ha, rfl, rfl⟩ := hr (skip false c.offset c.rest) b t (he ▸ hb) ht
  exact ⟨a, d, by rw [reading_bind, reading_gap]; exact ha, rfl, rfl⟩

theorem optional {start : Char → Bool} (hr : Takes r e f fun _ => false)
    (hn : ∀ c, stops start c.rest = true → (r c).reading = none) :
    Takes (Rule.optional r) (Option.map e) (Form.optional f) start := by
  rintro c (_ | b) t hb ht
  · cases hb
    exact ⟨none, c, by rw [reading_optional, hn c ht]; rfl, rfl, rfl⟩
  · obtain ⟨a, d, ha, rfl, hd⟩ := hr c b t hb (stops_nothing t)
    exact ⟨some a, d, by rw [reading_optional, ha]; rfl, rfl, hd⟩

theorem literal (l : List Char) : Takes (Rule.literal l) id (Form.literal l) stop := by
  intro c b t h _
  refine ⟨b, ⟨t, c.offset + byteLength l⟩, ?_, rfl, rfl⟩
  rw [reading_literal, List.isPrefixOf?_eq_some_iff_append_eq.2 h.symm]
  rfl

theorem char (p : Char → Bool) : Takes (Rule.char p) id (Form.char p) stop := by
  rintro c x t ⟨hc, hx⟩ _
  exact ⟨x, ⟨t, c.offset + x.utf8Size⟩, by simp [Rule.char, hc, hx], rfl, rfl⟩

theorem run (p : Char → Bool) : Takes (Rule.run p) id (Form.run p) stop := by
  rintro c x t ⟨hc, hx, ht⟩ _
  obtain ⟨h₁, h₂⟩ := takeWhile_of_stops hx ht
  exact ⟨x, ⟨t, c.offset + byteLength x⟩, by simp [Rule.run, hc, h₁, h₂], rfl, rfl⟩

/-- Behind a gap, too. -/
theorem finds (hr : Takes r e f stop) (hf : f.IsTight)
    (hs : ∀ x, stop x = true → isSpace x = false ∧ x ≠ '/') : Finds r e f stop := by
  intro c s b t hb hc ht
  rw [hf s b t hb] at hc
  obtain ⟨a, d, ha, he, rfl⟩ := hr c b t (hc ▸ hb) (stops_of_stops_afterGap hs ht)
  exact ⟨a, d, ha, he, rfl⟩

end Takes

namespace Finds

theorem mono {stop' : Char → Bool} (hr : Finds r e f stop) (h : ∀ x, stop x = true → stop' x = true) :
    Finds r e f stop' := fun c s b t hb hc ht => hr c s b t hb hc (stops_mono h ht)

theorem counted (hr : Finds r e f stop) : Finds (Rule.counted r) e f stop := by
  intro c s b t hb hc ht
  rw [reading_counted]
  exact hr c s b t hb hc ht

theorem spanned (hr : Finds r e f stop) : Finds (Rule.spanned r) (e ∘ Prod.fst) f stop := by
  intro c s b t hb hc ht
  obtain ⟨a, d, ha, rfl, hd⟩ := hr c s b t hb hc ht
  exact ⟨(a, _), d, by rw [reading_spanned, ha]; rfl, rfl, hd⟩

theorem bind_pure {h : α → γ} {e' : γ → δ} {h' : β → δ} (hr : Finds r e f stop) (he : ∀ a, e' (h a) = h' (e a)) :
    Finds (r >>= fun a => Pure.pure (h a)) e' (f >>= fun b => Pure.pure (h' b)) stop := by
  rintro c s _ _ ⟨b, t, hb, rfl, rfl⟩ hc ht
  obtain ⟨a, d, ha, rfl, hd⟩ := hr c s b _ hb hc ht
  exact ⟨h a, d, by rw [reading_bind, ha]; rfl, he a, hd⟩

theorem map {h : α → γ} {e' : γ → β} (hr : Finds r e f stop) (he : ∀ a, e' (h a) = e a) :
    Finds (r >>= fun a => Pure.pure (h a)) e' f stop := by
  intro c s b t hb hc ht
  obtain ⟨a, d, ha, rfl, hd⟩ := hr c s b t hb hc ht
  exact ⟨h a, d, by rw [reading_bind, ha]; rfl, he a, hd⟩

/-- Between two parts of a sequence it does not matter which of them a gap is counted to. -/
theorem bind_gap {stop' : Char → Bool} {k : α → Rule γ} {e' : γ → δ} {g : β → Form δ} (hr : Finds r e f stop)
    (hk : ∀ a, Finds (k a) e' (g (e a)) stop')
    (hg : ∀ b s x t, g b s x t → stops stop' (afterGap t) = true → stops stop (afterGap s) = true) :
    Finds (r >>= fun a => Rule.gap >>= fun _ => k a) e' (f >>= fun b => Form.gap >>= fun _ => g b) stop' := by
  rintro c s x t ⟨b, u, hb, _, v, hv, hx⟩ hc ht
  have hu : afterGap u = afterGap v := Form.Gap.afterGap_eq hv
  obtain ⟨a, d, ha, rfl, hd⟩ := hr c s b u hb hc (hu ▸ hg b v x t hx ht)
  obtain ⟨y, w, hy, rfl, hw⟩ := hk a (skip false d.offset d.rest) v x t hx (by rw [rest_gap, hd, hu]) ht
  exact ⟨y, w, by rw [reading_bind, ha, Option.bind_some, reading_bind, reading_gap]; exact hy, rfl, hw⟩

theorem optional {start : Char → Bool} (hr : Finds r e f stop) (hn : Refuses r start) :
    Finds (Rule.optional r) (Option.map e) (Form.optional f) (fun x => stop x || start x) := by
  rintro c s (_ | b) t hb hc ht
  · cases hb
    have hs : stops start c.rest = true := hc ▸ stops_mono (by simp +contextual) ht
    have hg : afterGap c.rest = c.rest := by rw [hc, afterGap_afterGap]
    exact ⟨none, c, by rw [reading_optional, hn c hg hs]; rfl, rfl, by rw [hg, hc]⟩
  · obtain ⟨a, d, ha, rfl, hd⟩ := hr c s b t hb hc (stops_mono (by simp +contextual) ht)
    exact ⟨some a, d, by rw [reading_optional, ha]; rfl, rfl, hd⟩

end Finds

/-- What a rule must satisfy to be repeated: whether it goes on is settled by the next character. -/
structure Repeats (r : Rule α) (e : α → β) (f : Form β) (stop start : Char → Bool) : Prop where
  reads : Reads r e f
  finds : Finds r e f stop
  refuses : Refuses r start
  starts : f.Starts start
  apart : ∀ x, start x = true → stop x = false
  shorter : ∀ s b t, f s b t → t.length < s.length

namespace Repeats

variable {start : Char → Bool}

theorem more_nil (h : Repeats r e f stop start) {c : Cursor} (hc : stops start (afterGap c.rest) = true) :
    (more r c).reading = some ([], c) := by
  have hn := h.refuses (skip false c.offset c.rest) (by rw [rest_gap, afterGap_afterGap]) (by rwa [rest_gap])
  rw [reading_more, hn]

theorem more_cons (h : Repeats r e f stop start) {c d : Cursor} {a : α}
    (ha : (r (skip false c.offset c.rest)).reading = some (a, d)) :
    (more r c).reading = (more r d).reading.map fun x => (a :: x.1, x.2) := by
  have hl := h.shorter _ _ _ (h.reads _ _ _ ha)
  rw [rest_gap] at hl
  rw [reading_more, ha]
  exact if_pos (Nat.lt_of_lt_of_le hl (Form.gap_afterGap c.rest).length_le)

/-- The first of one or more is read. What is left is none or more. -/
theorem first (h : Repeats r e f stop start) {s t : List Char} {b : β} {bs : List β}
    (hs : Form.Many1 f s (b :: bs) t) (ht : stops (fun x => stop x || start x) (afterGap t) = true) {c : Cursor}
    (hc : c.rest = afterGap s) :
    ∃ a d v, (r c).reading = some (a, d) ∧ e a = b ∧ afterGap d.rest = afterGap v ∧ Form.many f v bs t := by
  cases hs with
  | last hb =>
      obtain ⟨a, d, ha, he, hd⟩ := h.finds c _ _ _ hb hc (stops_mono (by simp +contextual) ht)
      exact ⟨a, d, _, ha, he, hd, .inl ⟨rfl, rfl⟩⟩
  | cons hb hg hs =>
      have hn := h.starts.stops_many1 h.apart hs
      obtain ⟨a, d, ha, he, hd⟩ := h.finds c _ _ _ hb hc (hg.afterGap_eq ▸ hn)
      exact ⟨a, d, _, ha, he, hd.trans hg.afterGap_eq, .inr hs⟩

theorem more (h : Repeats r e f stop start) {s t : List Char} {bs : List β} (hs : Form.many f s bs t)
    (ht : stops (fun x => stop x || start x) (afterGap t) = true) (c : Cursor)
    (hc : afterGap c.rest = afterGap s) :
    ∃ as d, (Rule.more r c).reading = some (as, d) ∧ as.map e = bs ∧ afterGap d.rest = afterGap t := by
  induction bs generalizing s c with
  | nil =>
      cases Form.many_nil.1 hs
      exact ⟨[], c, h.more_nil (hc ▸ stops_mono (by simp +contextual) ht), rfl, hc⟩
  | cons b bs ih =>
      obtain ⟨a, d, v, ha, rfl, hd, hv⟩ := h.first (c := skip false c.offset c.rest) (Form.many_cons.1 hs) ht
        (by rw [rest_gap, hc])
      obtain ⟨as, w, has, rfl, hw⟩ := ih hv d hd
      exact ⟨a :: as, w, by rw [h.more_cons ha, has]; rfl, rfl, hw⟩

theorem many (h : Repeats r e f stop start) :
    Finds (Rule.many r) (List.map e) (Form.many f) (fun x => stop x || start x) := by
  rintro c s (_ | ⟨b, bs⟩) t hs hc ht
  · cases Form.many_nil.1 hs
    have hg : afterGap c.rest = c.rest := by rw [hc, afterGap_afterGap]
    have hn := h.refuses c hg (hc ▸ stops_mono (by simp +contextual) ht)
    exact ⟨[], c, by rw [reading_many, hn], rfl, by rw [hg, hc]⟩
  · obtain ⟨a, d, v, ha, rfl, hd, hv⟩ := h.first (Form.many_cons.1 hs) ht hc
    obtain ⟨as, w, has, rfl, hw⟩ := h.more hv ht d hd
    exact ⟨a :: as, w, by rw [reading_many, ha]; simp only [has]; rfl, rfl, hw⟩

theorem many1 (h : Repeats r e f stop start) :
    Finds (Rule.many1 r) (List.map e) (Form.many1 f) (fun x => stop x || start x) := by
  rintro c s (_ | ⟨b, bs⟩) t hs hc ht
  · cases hs
  · obtain ⟨a, d, v, ha, rfl, hd, hv⟩ := h.first hs ht hc
    obtain ⟨as, w, has, rfl, hw⟩ := h.many (skip false d.offset d.rest) v bs t hv (by rw [rest_gap, hd]) ht
    refine ⟨a :: as, w, ?_, rfl, hw⟩
    rw [Rule.many1, reading_bind, ha, Option.bind_some, reading_bind, reading_gap, Option.bind_some,
      reading_bind, has]
    rfl

end Repeats

end Rule

end PredicateSearch.Schema
