import Splitcore.Money.Statuses

/-!
What is delivered stays delivered, unless it is returned: a payout that is `SUCCESS` stays so under
every statement but the one that takes a reversal.
-/

namespace Splitcore.Money

open Relational Interleaving Ledger

/-- Only the statement that takes a reversal takes `SUCCESS` from a payout. -/
def Takes (site : Site) (db db' : Db) : Prop := ∀ p ∈ db.payouts.rows, p.status = .SUCCESS →
  site = .handleTransferEventReversed p.id ∨ ∃ p' ∈ db'.payouts.rows, p'.id = p.id ∧ p'.status = .SUCCESS

variable {site : Site} {s s' : Db}

lemma StatusStep.of_success {payoutId : Uuid} {status : PayoutStatus} (h : StatusStep site payoutId .SUCCESS status) :
    site = .handleTransferEventReversed payoutId ∨ status = .SUCCESS := by
  cases h with
  | stays => exact .inr rfl
  | held hsite hopen => exact absurd hopen (by decide)
  | claimed hsite hopen => exact absurd hopen (by decide)
  | delivered hsite hstatus => exact .inr rfl
  | returned hsite => exact .inl hsite
  | failed hsite hstatus => exact absurd rfl hstatus
  | reviewed hsite hstatus => exact absurd rfl hstatus

lemma Moves.takes (h : Moves site s s') : Takes site s s' := by
  intro p hp hs
  obtain ⟨p', hp', hid, hstep⟩ := h p hp
  rw [hs] at hstep
  exact hstep.of_success.imp_right fun hstatus => ⟨p', hp', hid, hstatus⟩

/-- A retry reopens what is `FAILED`. -/
lemma retryPayout_each {payoutId : Uuid} : (retryPayout payoutId).Each Takes := by
  have hsame : ∀ {site : Site} {s : Db}, Takes site s s := fun p hp hs => .inr ⟨p, hp, rfl, hs⟩
  refine Prog.each_bind (Prog.each_command (fun _ => hsame) fun w s n s' hm => ?_) fun n => ?_
  · obtain ⟨m, h⟩ := Tx.run_ok.mp hm
    simp only [Tx.bind_ok, Tx.now_ok] at h
    obtain ⟨_, _, ⟨rfl, rfl⟩, h⟩ := h
    obtain ⟨-, t, ht, hafter⟩ := Model.updateMany_ok h
    obtain rfl : s' = { s with payouts := t } := congrArg Prod.fst hafter
    refine fun p hp hs => .inr ⟨p, ?_, rfl, hs⟩
    rw [Table.rows_update ht]
    exact List.mem_map.mpr ⟨p, hp, if_neg (by simp [hs])⟩
  · split
    · refine Prog.each_bind (Prog.each_query fun _ => hsame) fun found => ?_
      split <;> trivial
    · refine Prog.each_bind Prog.each_request fun _ => Prog.each_command (fun _ => hsame) fun w s a s' h => ?_
      rw [(findUniqueOrThrow_ok h).2]
      exact hsame

/-- **Nothing but a reversal takes a payout back.** -/
theorem program_each (o : Operation) : o.program.Each Takes := by
  by_cases ho : ∃ payoutId, o = .retryPayout payoutId
  · obtain ⟨payoutId, rfl⟩ := ho
    exact Prog.each_bind retryPayout_each fun _ => trivial
  · push Not at ho
    exact (program_moves o ho).mono fun _ _ _ => Moves.takes

end Splitcore.Money
