import Splitcore.Interleaving.Complete
import Splitcore.Interleaving.Errors
import Splitcore.Interleaving.Recording
import Splitcore.Money.Services

/-!
A settlement is all or nothing: one that raises has changed nothing, and what goes wrong with the jobs
after its commit changes nothing about it.
-/

namespace Splitcore.Money

open Relational Interleaving Ledger

/-! ### What the log of a settlement says -/

/-- The payouts a statement created, in order. -/
def createdBy (s s' : Db) : List Uuid := (s'.payouts.rows.drop s.payouts.rows.length).map (·.id)

def enqueueOf : Did App → Option Uuid
  | .asked (.addPayoutJob payoutId _) => some payoutId
  | _ => none

/-- The payouts a run asked to be enqueued, in order. -/
def enqueuedIn (log : List (Did App)) : List Uuid := log.filterMap enqueueOf

/-- The last thing was the reload; or a statement that took effect and was reported as failed. -/
def RaisedLater (log : List (Did App)) : Prop :=
  (∃ before paymentId w s, log = before ++ [.stmt (.reload paymentId) w s s]) ∨
  (∃ before paymentId e, log = before ++ [.failed (.reload paymentId) e]) ∨
  ∃ before site w s s' e, log = before ++ [.stmt site w s s', .failed site e]

/-- After a statement that changed something the others change nothing. -/
def OneChange (log : List (Did App)) : Prop :=
  ∀ before after site w s s', log = before ++ .stmt site w s s' :: after → s' ≠ s → OnlyReads after

/-- What is so of a settlement that ended with `r`. -/
structure AllOrNothing (log : List (Did App)) (r : Except Err Unit) : Prop where
  /-- One that raised has changed nothing, unless it had done everything but report it. -/
  raised : ∀ e, r = .error e → OnlyReads log ∨ RaisedLater log
  once : OneChange log
  /-- Every payout it created it asked to be enqueued, once and in order, whatever the answers. -/
  enqueued : ∀ paymentId w s s', .stmt (.settleTransaction paymentId) w s s' ∈ log →
    (∀ e, .failed (.settleTransaction paymentId) e ∉ log) → enqueuedIn log = createdBy s s'

/-! ### Before and after the transaction -/

section Logs

variable {log : List (Did App)} {d : Did App} {left : List Uuid} {r : Except Err Unit} {s s' : Db} {w : Input}

def isSettlement : Site → Bool
  | .settleTransaction _ => true
  | _ => false

/-- It neither settles nor enqueues. -/
def quiet : Did App → Bool
  | .stmt site _ _ _ | .failed site _ => !isSettlement site
  | .asked (.addPayoutJob _ _) => false
  | _ => true

/-- Nothing was changed so far. -/
structure Reading (log : List (Did App)) : Prop where
  only : OnlyReads log
  quiet : ∀ d ∈ log, quiet d = true

/-- What was to be changed was changed, and the payouts in `left` are to be enqueued. -/
structure Sent (left : List Uuid) (log : List (Did App)) : Prop where
  once : OneChange log
  enqueued : ∀ paymentId w s s', .stmt (.settleTransaction paymentId) w s s' ∈ log →
    (∀ e, .failed (.settleTransaction paymentId) e ∉ log) → enqueuedIn log ++ left = createdBy s s'

lemma oneChange_of_reads (h : OnlyReads log) : OneChange log := fun _ _ site w s s' heq hne =>
  absurd (h site w s s' (by rw [heq]; simp)) hne

lemma oneChange_last (h : OnlyReads log) : OneChange (log ++ [d]) := by
  intro before after site w s s' heq hne
  rcases eq_of_snoc heq with ⟨rfl, -⟩ | ⟨after', -, rfl⟩
  · exact fun _ _ _ _ hmem => by cases hmem
  · exact absurd (h site w s s' (by simp)) hne

lemma OneChange.snoc (h : OneChange log) (hd : ∀ site w s s', d = .stmt site w s s' → s' = s) :
    OneChange (log ++ [d]) := by
  intro before after site w s s' heq hne
  rcases eq_of_snoc heq with ⟨rfl, -⟩ | ⟨after', rfl, rfl⟩
  · exact fun _ _ _ _ hmem => by cases hmem
  · exact (h before after' site w s s' rfl hne).snoc hd

lemma reading_nil : Reading [] := ⟨fun _ _ _ _ h => (by cases h), fun _ h => by cases h⟩

lemma Reading.snoc (h : Reading log) (hd : Money.quiet d = true) (hreads : ∀ site w s s', d = .stmt site w s s' → s' = s) :
    Reading (log ++ [d]) := by
  refine ⟨h.only.snoc hreads, fun d' hd' => ?_⟩
  rcases List.mem_append.mp hd' with hd' | hd'
  · exact h.quiet d' hd'
  · rw [List.mem_singleton.mp hd']
    exact hd

lemma Reading.unasked (h : Reading log) : enqueuedIn log = [] := by
  refine List.filterMap_eq_nil_iff.mpr fun d hd => ?_
  have hquiet := h.quiet d hd
  unfold enqueueOf
  split
  · cases hquiet
  · rfl

/-- One that raises before the transaction. -/
lemma Reading.ended (h : Reading log) : AllOrNothing log r where
  raised _ _ := .inl h.only
  once := oneChange_of_reads h.only
  enqueued paymentId w s s' hmem _ := by
    have hquiet := h.quiet _ hmem
    cases hquiet

/-- A quiet thing more. -/
lemma Sent.snoc (h : Sent left log) (hquiet : Money.quiet d = true)
    (hd : ∀ site w s s', d = .stmt site w s s' → s' = s) : Sent left (log ++ [d]) := by
  refine ⟨h.once.snoc hd, fun paymentId w s s' hmem hnot => ?_⟩
  have hstmt : .stmt (.settleTransaction paymentId) w s s' ∈ log := by
    rcases List.mem_append.mp hmem with hmem | hmem
    · exact hmem
    · rw [← List.mem_singleton.mp hmem] at hquiet
      cases hquiet
  have hsame : enqueueOf d = none := by
    unfold enqueueOf
    split
    · cases hquiet
    · rfl
  rw [← h.enqueued paymentId w s s' hstmt fun e he => hnot e (List.mem_append_left _ he)]
  simp [Money.enqueuedIn, hsame]

/-- A payout less to enqueue. -/
lemma Sent.asked {payoutId : Uuid} {delay : ℕ} (h : Sent (payoutId :: left) log) :
    Sent left (log ++ [.asked (.addPayoutJob payoutId delay)]) := by
  refine ⟨h.once.snoc fun _ _ _ _ heq => (by cases heq), fun paymentId w s s' hmem hnot => ?_⟩
  have hstmt : .stmt (.settleTransaction paymentId) w s s' ∈ log := by simpa using hmem
  rw [← h.enqueued paymentId w s s' hstmt fun e he => hnot e (List.mem_append_left _ he)]
  simp [Money.enqueuedIn, enqueueOf]

/-- One that ends after the transaction. -/
lemma Sent.ended (h : Sent [] log) (hr : ∀ e, r = .error e → RaisedLater log) : AllOrNothing log r where
  raised e he := .inr (hr e he)
  once := h.once
  enqueued paymentId w s s' hmem hnot := by
    rw [← h.enqueued paymentId w s s' hmem hnot, List.append_nil]

end Logs

/-! ### Every way out of a settlement -/

section Programs

variable {o : Operation} {log : List (Did App)} {left : List Uuid} {α β : Type} {site : Site} {w : Input} {s s' : Db}

/-- What a call may end in. -/
def allOrNothing (o : Operation) (log : List (Did App)) (r : Except Err Unit) : Prop :=
  ∀ reference, o = .settle reference → AllOrNothing log r

/-- The rest of a settlement ends it as it may. -/
abbrev Concludes (o : Operation) (p : Prog App α) (log : List (Did App)) : Prop :=
  Obeys (logging allOrNothing) (fun g r => AllOrNothing g.2 (r.map fun _ => ())) p (o, log)

lemma concludes_statement {m : Tx α} {k : α → Prog App β}
    (hok : ∀ w s a s', m.run w s = .ok (a, s') → Concludes o (k a) (log ++ [.stmt site w s s']) ∧
      ∀ e, AllOrNothing (log ++ [.stmt site w s s', .failed site e]) (.error e))
    (herr : ∀ w s e, m.run w s = .error e → AllOrNothing (log ++ [.stmt site w s s]) (.error e) ∧
      ∀ e', AllOrNothing (log ++ [.stmt site w s s, .failed site e']) (.error e'))
    (hfail : ∀ e, AllOrNothing (log ++ [.failed site e]) (.error e)) :
    Concludes o (statement site m >>= k) log := by
  have hlost : ∀ w s s' e, (log ++ [.stmt site w s s']) ++ [.failed site e] =
      log ++ [(.stmt site w s s' : Did App), .failed site e] := fun _ _ _ _ => by simp
  refine obeys_bind.mpr (obeys_outcomes (fun w s a s' _ hm => ⟨trivial, (hok w s a s' hm).1, fun e => ?_⟩)
    (fun w s e _ hm => ⟨trivial, (herr w s e hm).1, fun e' => ?_⟩) hfail)
  · have h := (hok w s a s' hm).2 e
    rw [← hlost] at h
    exact h
  · have h := (herr w s e hm).2 e'
    rw [← hlost] at h
    exact h

/-- A statement that reads, before anything was changed. -/
lemma Reading.statement {m : Tx α} {k : α → Prog App β} (h : Reading log) (hsite : isSettlement site = false)
    (hm : ∀ w s a s', m.run w s = .ok (a, s') → s' = s)
    (hk : ∀ w s a, m.run w s = .ok (a, s) → Concludes o (k a) (log ++ [.stmt site w s s])) :
    Concludes o (Splitcore.statement site m >>= k) log := by
  have hread : ∀ w s, Reading (log ++ [.stmt site w s s]) := fun w s =>
    h.snoc (by simp [Money.quiet, hsite]) fun _ _ _ _ heq => by cases heq; rfl
  have hfailed : ∀ {log}, Reading log → ∀ e, Reading (log ++ [(.failed site e : Did App)]) := fun hlog e =>
    hlog.snoc (by simp [Money.quiet, hsite]) fun _ _ _ _ heq => by cases heq
  have hlost : ∀ w s e, Reading (log ++ [(.stmt site w s s : Did App), .failed site e]) := fun w s e => by
    have h' := hfailed (hread w s) e
    rwa [List.append_assoc] at h'
  refine concludes_statement (fun w s a s' hrun => ?_)
    (fun w s e _ => ⟨(hread w s).ended, fun e' => (hlost w s e').ended⟩) fun e => (hfailed h e).ended
  obtain rfl := hm w s a s' hrun
  exact ⟨hk w s' a hrun, fun e => (hlost w s' e).ended⟩

lemma Reading.query {f : Db → α} {k : α → Prog App β} (h : Reading log) (hsite : isSettlement site = false)
    (hk : ∀ w s, Concludes o (k (f s)) (log ++ [.stmt site w s s])) :
    Concludes o (Splitcore.query site f >>= k) log := by
  have hfailed : ∀ {log}, Reading log → ∀ e, Reading (log ++ [(.failed site e : Did App)]) := fun hlog e =>
    hlog.snoc (by simp [Money.quiet, hsite]) fun _ _ _ _ heq => by cases heq
  have hread : ∀ w s, Reading (log ++ [.stmt site w s s]) := fun w s =>
    h.snoc (by simp [Money.quiet, hsite]) fun _ _ _ _ heq => by cases heq; rfl
  exact obeys_bind.mpr ⟨fun w s _ => ⟨trivial, hk w s, fun e => (hfailed (hread w s) e).ended⟩,
    fun e => (hfailed h e).ended⟩

lemma Reading.request {q : Ask} {k : Ans q → Prog App β} (h : Reading log) (hq : Money.quiet (.asked q) = true)
    (hk : ∀ a, Reading (log ++ [.asked q] ++ [.answered q (.ok a)]) →
      Concludes o (k a) (log ++ [.asked q] ++ [.answered q (.ok a)])) :
    Concludes o (Splitcore.request q >>= k) log := by
  have hanswered : ∀ a, Reading (log ++ [.asked q] ++ [.answered q a]) := fun a =>
    (h.snoc hq fun _ _ _ _ heq => by cases heq).snoc rfl fun _ _ _ _ heq => by cases heq
  refine obeys_bind.mpr (obeys_request trivial fun a => ?_)
  rcases a with e | a
  · exact (hanswered (.error e)).ended
  · exact hk a (hanswered (.ok a))

/-- Whatever the reload ends in, everything was done before. -/
lemma Sent.reload {id : Uuid} (h : Sent [] log) : Concludes o (some <$> reload id) log := by
  have hread : ∀ w s, Sent [] (log ++ [.stmt (.reload id) w s s]) := fun w s =>
    h.snoc rfl fun _ _ _ _ heq => by cases heq; rfl
  have hfailed : ∀ {log}, Sent [] log → ∀ e, Sent [] (log ++ [(.failed (.reload id) e : Did App)]) := fun hlog e =>
    hlog.snoc rfl fun _ _ _ _ heq => by cases heq
  have hlost : ∀ w s e e', AllOrNothing (log ++ [.stmt (.reload id) w s s, .failed (.reload id) e]) (.error e') :=
    fun w s e e' => by
      have h' := hfailed (hread w s) e
      rw [List.append_assoc] at h'
      exact h'.ended fun _ _ => .inr (.inr ⟨log, .reload id, w, s, s, e, rfl⟩)
  refine concludes_statement (fun w s a s' hm => ?_) (fun w s e _ => ⟨?_, fun e' => hlost w s e' e'⟩) fun e => ?_
  · obtain ⟨-, rfl⟩ := findUniqueOrThrow_ok hm
    exact ⟨(hread w s').ended (fun _ he => by cases he), fun e => hlost w s' e e⟩
  · exact (hread w s).ended fun _ _ => .inl ⟨log, id, w, s, rfl⟩
  · exact (hfailed h e).ended fun _ _ => .inr (.inl ⟨log, id, e, rfl⟩)

/-- The jobs: whatever the answers, every one is asked for, and nothing else is done. -/
lemma Sent.enqueuePayouts {ids : List Uuid} {k : Prog App β} (h : Sent ids log)
    (hk : ∀ log, Sent [] log → Concludes o k log) : Concludes o (Money.enqueuePayouts ids >>= fun _ => k) log := by
  induction ids generalizing log with
  | nil => exact hk log h
  | cons id ids ih =>
    refine ⟨trivial, fun a => ?_⟩
    have hasked : Sent ids (log ++ [.asked (.addPayoutJob id 0)] ++ [.answered (.addPayoutJob id 0) a]) :=
      (Sent.asked h).snoc rfl fun _ _ _ _ heq => by cases heq
    rcases a with e | a
    · exact ih hasked
    · exact ih hasked

/-- A statement that may have changed something was reported as failed. -/
lemma Reading.lost {e e' : Err} (h : Reading log) :
    AllOrNothing (log ++ [.stmt site w s s', .failed site e]) (.error e') where
  raised _ _ := .inr (.inr (.inr ⟨log, site, w, s, s', e, rfl⟩))
  once := by
    have hlast : OneChange (log ++ [.stmt site w s s']) := oneChange_last h.only
    have hfailed := hlast.snoc (d := .failed site e) fun _ _ _ _ heq => by cases heq
    rwa [List.append_assoc] at hfailed
  enqueued paymentId w₁ s₁ s₁' hmem hnot := by
    rcases List.mem_append.mp hmem with hmem | hmem
    · have hquiet := h.quiet _ hmem
      cases hquiet
    · simp only [List.mem_cons, Did.stmt.injEq, reduceCtorEq, List.not_mem_nil, or_false] at hmem
      obtain ⟨rfl, -⟩ := hmem
      exact absurd (by simp) (hnot e)

/-- The one statement that changes something succeeded. -/
lemma Reading.changes (h : Reading log)
    (hcreated : ∀ paymentId, site = .settleTransaction paymentId → left = createdBy s s') :
    Sent left (log ++ [.stmt site w s s']) := by
  refine ⟨oneChange_last h.only, fun paymentId w₁ s₁ s₁' hmem _ => ?_⟩
  rcases List.mem_append.mp hmem with hmem | hmem
  · have hquiet := h.quiet _ hmem
    cases hquiet
  · simp only [List.mem_singleton, Did.stmt.injEq] at hmem
    obtain ⟨rfl, rfl, rfl, rfl⟩ := hmem
    have hnone : enqueuedIn (log ++ [.stmt (.settleTransaction paymentId) w₁ s₁ s₁']) = [] := by
      rw [enqueuedIn, List.filterMap_append]
      exact congrArg (· ++ []) h.unasked
    rw [hnone, List.nil_append]
    exact hcreated paymentId rfl

/-- What the transaction creates is what it answers. -/
lemma settleTransaction_creates {paymentId : Uuid} {specs : List LedgerEntrySpec} {o : Option (List Uuid)}
    (h : (settleTransaction paymentId specs).run w s = .ok (o, s')) : createdBy s s' = o.getD [] := by
  rcases settleTransaction_parts h with
    ⟨rfl, rfl⟩ | ⟨payments', σ₂, ids, n, rfl, -, -, hpost, hpayouts⟩
  · simp [createdBy]
  · obtain ⟨-, db, entries, ⟨accounts₂, hdb, -⟩, -, h₂⟩ := post_ok hpost
    obtain ⟨accounts', payouts', payouts, h₃, -, hrows, -, -, hids⟩ := createPayouts_ok hpayouts
    have hbefore : σ₂.1.payouts.rows = s.payouts.rows := by
      rw [h₂, hdb]
    have hafter : s'.payouts.rows = s.payouts.rows ++ payouts := by
      rw [show s' = _ from h₃, ← hbefore]
      exact hrows
    rw [createdBy, hafter, List.drop_left, hids]
    rfl

lemma Reading.transition {id : Uuid} {source : List PaymentStatus} {target : PaymentStatus} {k : Prog App β}
    (h : Reading log) (hk : ∀ log, Sent [] log → Concludes o k log) :
    Concludes o (Money.transition id source target >>= fun _ => k) log := by
  refine concludes_statement (fun w s a s' _ => ⟨hk _ (h.changes fun _ heq => by cases heq), fun e => h.lost⟩)
    (fun w s e _ => ⟨Reading.ended (h.snoc rfl fun _ _ _ _ heq => by cases heq; rfl), fun e' => h.lost⟩)
    fun e => Reading.ended (h.snoc rfl fun _ _ _ _ heq => by cases heq)

lemma Reading.settleTransaction {paymentId : Uuid} {specs : List LedgerEntrySpec} {k : Option (List Uuid) → Prog App β}
    (h : Reading log) (hk : ∀ o' log, Sent (o'.getD []) log → Concludes o (k o') log) :
    Concludes o (Splitcore.statement (.settleTransaction paymentId)
      (Money.settleTransaction paymentId specs) >>= k) log := by
  refine concludes_statement (fun w s o' s' hm => ⟨hk o' _ (h.changes fun _ _ => ?_), fun e => h.lost⟩)
    (fun w s e hm => ⟨⟨fun _ _ => .inl ?_, oneChange_last h.only, fun id w₁ s₁ s₁' hmem _ => ?_⟩, fun e' => h.lost⟩)
    fun e => ⟨fun _ _ => .inl ?_, oneChange_last h.only, fun id w₁ s₁ s₁' hmem _ => ?_⟩
  · exact (settleTransaction_creates hm).symm
  · exact h.only.snoc fun _ _ _ _ heq => by cases heq; rfl
  · have hsent : Sent [] (log ++ [(.stmt (.settleTransaction paymentId) w s s : Did App)]) :=
      h.changes fun _ _ => by simp [createdBy]
    rw [← hsent.enqueued id w₁ s₁ s₁' hmem (fun e he => ?_), List.append_nil]
    have hquiet := h.quiet (.failed (.settleTransaction id) e) (by simpa using he)
    cases hquiet
  · exact h.only.snoc fun _ _ _ _ heq => by cases heq
  · have hquiet := h.quiet (.stmt (.settleTransaction id) w₁ s₁ s₁') (by simpa using hmem)
    cases hquiet

lemma Reading.settleVerified {reference : String} {payment : PaymentTransaction} (h : Reading log) :
    Concludes o (Money.settleVerified reference payment) log := by
  unfold Money.settleVerified
  split
  · exact h.ended
  rename_i splitRuleId _
  refine h.statement rfl (fun w s rule s' hm => (findUniqueOrThrow_ok hm).2) fun w s rule _ => ?_
  have hrule : Reading (log ++ [.stmt (.settleSplitRule splitRuleId) w s s]) :=
    h.snoc rfl fun _ _ _ _ heq => by cases heq; rfl
  refine obeys_bind.mpr (obeys_ofExcept.mpr ?_)
  rcases computePaymentEntries (paymentForPosting payment) (splitForPosting rule) with e | specs
  · exact hrule.ended
  refine hrule.settleTransaction fun o' log hsent => ?_
  rcases o' with _ | ids
  · exact hsent.reload
  · exact hsent.enqueuePayouts fun log hsent => hsent.reload

/-- **Every way out of a settlement.** -/
theorem settle_concludes {reference : String} : Concludes o (settle reference) [] := by
  refine reading_nil.query rfl fun w s => ?_
  have hfound : Reading ([] ++ [.stmt (.settleFind reference) w s s]) :=
    reading_nil.snoc rfl fun _ _ _ _ heq => by cases heq; rfl
  rcases s.payments.find (·.externalReference == reference) with _ | payment
  · exact hfound.ended
  simp only
  split
  · exact hfound.ended
  refine hfound.request rfl fun verification hverified => ?_
  split
  · exact hverified.transition fun log hsent => hsent.reload
  · exact hverified.transition fun log hsent => hsent.reload
  · exact hverified.transition fun log hsent => hsent.reload
  · split
    · exact hverified.ended
    · exact hverified.settleVerified

/-- Calls of settle end as they may; of the others nothing is asked. -/
lemma program_concludes (o : Operation) :
    Obeys (logging allOrNothing) (logging allOrNothing).post o.program (o, []) := by
  by_cases hsettle : ∃ reference, o = .settle reference
  · obtain ⟨reference, rfl⟩ := hsettle
    have hbind : Concludes (.settle reference) (settle reference >>= fun _ => (pure () : Prog App Unit)) [] := by
      refine obeys_bind.mpr (Obeys.mono settle_concludes fun g r hr => ?_)
      rcases r with e | settled <;> exact hr
    refine Obeys.mono (logging_label hbind) fun g r ⟨_, hr⟩ reference' _ => ?_
    rcases r with e | ⟨⟩ <;> exact hr
  · refine Obeys.mono (obeys_of_spares (I := fun g : Operation × List (Did App) => g.1 = o)
      (Prog.spares_any _) (fun _ _ _ _ _ hg _ _ => ⟨trivial, hg⟩) (fun _ _ _ hg _ => hg)
      (fun _ _ hg _ => ⟨trivial, hg⟩) (fun _ _ _ hg _ => hg) rfl) fun g r hg reference heq => ?_
    exact absurd ⟨reference, hg.symm.trans heq⟩ hsettle

end Programs

/-! ### Any run -/

/-- **Settlements are all or nothing.** Whatever else is going on and whatever fails: a call of `settle` that
raised has changed nothing at all, unless it was the reload after everything was done that raised, or the
report of a statement that took effect; and of one that committed, the jobs change nothing and raise nothing:
it asked for the job of every payout it had created, in order, whatever became of the others. -/
theorem settle_all_or_nothing {p₀ p : Pool App Operation Unit} (hruns : p₀.runs = [])
    (h : Reach services anyEvent p₀ p) : ∀ r ∈ p.runs, ∀ reference, r.label = .settle reference →
      ∀ res, r.prog = .ofExcept res → AllOrNothing r.log res := fun _ hr reference hlabel _ hend =>
  logging_ended program_concludes hruns h hr hend reference hlabel

/-! ### A run: a charge of another amount; then the queue is down -/

/-- Providers of whom one reports another amount, and one cannot be reached. -/
def lessCharged : (q : Ask) → Except Err (Ans q)
  | .verifyPayment _ => .ok ⟨.success, 1, some "NGN"⟩
  | q => agreeable q

def queueDown : (q : Ask) → Except Err (Ans q)
  | .addPayoutJob _ _ => .error (.outside "Connection is closed.")
  | q => agreeable q

def refusedThenSettled : List (Event App Operation Db) :=
  .start (.settle "pay_1") :: execs 0 [1] ++ asks 0 lessCharged ++ .finish 0 ::
    .start (.settle "pay_1") :: execs 1 [2] ++ asks 1 agreeable ++ execs 1 [3, 4] ++
    asks 1 queueDown ++ asks 1 queueDown ++ execs 1 [5] ++ [.finish 1]

def endOf {α : Type} : Prog App α → Option Bool
  | .ret _ => some true
  | .raise _ => some false
  | _ => none

theorem settle_all_or_nothing_sample : ∃ p, run services ⟨sampleDb, (), []⟩ refusedThenSettled = some p ∧
    p.runs.map (fun r => (endOf r.prog, (enqueuedIn r.log).length)) = [(some false, 0), (some true, 2)] ∧
    p.store.payments.rows.map (·.status) = [.SUCCESS] ∧
    ∀ r ∈ p.runs, ∀ reference, r.label = .settle reference → ∀ res, r.prog = .ofExcept res →
      AllOrNothing r.log res := by
  have hrun : ((run services ⟨sampleDb, (), []⟩ refusedThenSettled).any fun p =>
      (p.runs.map (fun r => (endOf r.prog, (enqueuedIn r.log).length)) == [(some false, 0), (some true, 2)]) &&
        (p.store.payments.rows.map (·.status) == [.SUCCESS])) = true := by decide +kernel
  obtain ⟨p, hp, hends⟩ := (Option.any_eq_true _ _).mp hrun
  simp only [Bool.and_eq_true, beq_iff_eq] at hends
  exact ⟨p, hp, hends.1, hends.2, settle_all_or_nothing rfl (reach_of_run (along_any _) hp)⟩

end Splitcore.Money
