import Mathlib.Tactic.Common

/-!
Records that a third party's answer is about.

Somebody enters details, a third party says something about them, and somebody confirms what it
said. The writes are optimistic: each was decided on a record read before, and is applied to the
record as it is by then. A write that is current for the record it meets keeps every answer with
the details it is about, and every confirmation with the answer it agreed with.
-/

namespace Splitcore.Confirmation

/-- The details, what was last said about them, and when that was confirmed. -/
structure Record (D N T : Type) where
  details : D
  answer : Option N
  confirmed : Option T
deriving DecidableEq

/-- What happened outside: what the third party said about which details, and which answers the
submission of each confirmation agreed with. -/
structure Evidence (D N T : Type) where
  said : D → N → Prop
  agreed : T → N → Prop

inductive Write (D N T Q : Type) where
  /-- New details; what was found out about earlier ones is kept or cleared. -/
  | enter (details : D) (keep : Bool)
  /-- An answer about the details it was asked for. -/
  | note (about : D) (answer : N)
  | confirm (submitted : Q) (at_ : T)

variable {D N T Q : Type}

namespace Record

/-- The answer was given for these details, and a confirmation agreed with it. -/
structure Sound (E : Evidence D N T) (r : Record D N T) : Prop where
  said : ∀ n, r.answer = some n → E.said r.details n
  agreed : ∀ t, r.confirmed = some t → ∃ n, r.answer = some n ∧ E.agreed t n

/-- Nothing was found out yet. -/
def Blank (r : Record D N T) : Prop := r.answer = none ∧ r.confirmed = none

variable {E E' : Evidence D N T} {r : Record D N T}

lemma Sound.mono (h : r.Sound E) (hsaid : ∀ d n, E.said d n → E'.said d n)
    (hagreed : ∀ t n, E.agreed t n → E'.agreed t n) : r.Sound E' := by
  refine ⟨fun n hn => hsaid _ _ (h.said n hn), fun t ht => ?_⟩
  obtain ⟨n, hn, ha⟩ := h.agreed t ht
  exact ⟨n, hn, hagreed _ _ ha⟩

lemma Blank.sound (h : r.Blank) : r.Sound E :=
  ⟨fun n hn => by simp [h.1] at hn, fun t ht => by simp [h.2] at ht⟩

/-- Without an answer there is no confirmation. -/
lemma Sound.blank (h : r.Sound E) (hn : r.answer = none) : r.Blank := by
  refine ⟨hn, Option.eq_none_iff_forall_ne_some.mpr fun t ht => ?_⟩
  obtain ⟨n, hn', -⟩ := h.agreed t ht
  rw [hn] at hn'; cases hn'

/-- **A confirmed record is about its own details**: the third party said of them what was
confirmed. -/
theorem Sound.confirmed (h : r.Sound E) {t : T} (ht : r.confirmed = some t) :
    ∃ n, r.answer = some n ∧ E.said r.details n ∧ E.agreed t n := by
  obtain ⟨n, hn, ha⟩ := h.agreed t ht
  exact ⟨n, hn, h.said n hn, ha⟩

end Record

namespace Write

/-- Only what was answered can be confirmed. -/
def apply : Write D N T Q → Record D N T → Option (Record D N T)
  | enter d true, r => some { r with details := d }
  | enter d false, _ => some ⟨d, none, none⟩
  | note _ n, r => some { r with answer := some n, confirmed := none }
  | confirm _ t, r => if r.answer.isSome then some { r with confirmed := some t } else none

variable (agrees : Q → N → Prop)

/-- The record is still as the write was decided for. -/
def Current : Write D N T Q → Record D N T → Prop
  | enter d true, r => r.details = d ∨ r.answer = none
  | enter _ false, _ => True
  | note about _, r => r.details = about
  | confirm q _, r => ∀ n, r.answer = some n → agrees q n

/-- What the write records did happen outside. -/
def Backed (E : Evidence D N T) : Write D N T Q → Prop
  | enter _ _ => True
  | note about n => E.said about n
  | confirm q t => ∀ n, agrees q n → E.agreed t n

variable {agrees} {E : Evidence D N T} {write : Write D N T Q} {r r' : Record D N T}

/-- **A current write keeps the record sound.** -/
theorem sound (hr : r.Sound E) (hc : write.Current agrees r) (hb : write.Backed agrees E)
    (ha : write.apply r = some r') : r'.Sound E := by
  cases write with
  | enter d keep =>
    cases keep with
    | true =>
      obtain rfl : { r with details := d } = r' := Option.some.inj ha
      rcases hc with rfl | hn
      · exact hr
      · exact (show Record.Blank { r with details := d } from hr.blank hn).sound
    | false =>
      obtain rfl : ⟨d, none, none⟩ = r' := Option.some.inj ha
      exact (show Record.Blank ⟨d, none, none⟩ from ⟨rfl, rfl⟩).sound
  | note about n =>
    obtain rfl : { r with answer := some n, confirmed := none } = r' := Option.some.inj ha
    refine ⟨fun m hm => ?_, nofun⟩
    obtain rfl : n = m := Option.some.inj hm
    rw [show r.details = about from hc]; exact hb
  | confirm q t =>
    simp only [apply] at ha
    split at ha
    · rename_i hsome
      obtain rfl := Option.some.inj ha
      obtain ⟨n, hn⟩ := Option.isSome_iff_exists.mp hsome
      refine ⟨hr.said, fun t' ht' => ⟨n, hn, ?_⟩⟩
      obtain rfl : t = t' := Option.some.inj ht'
      exact hb n (hc n hn)
    · cases ha

end Write

end Splitcore.Confirmation
