import Splitcore.Interleaving.Errors
import Splitcore.Money.Quoted
import Splitcore.SplitRules.Shares

/-!
What was accepted can be settled.

The bodies of requests bound the amount of a payment and the shares of a rule, in different places and
at different times. Together they are what the posting of the payment checks, and what the columns can
hold.
-/

namespace Splitcore.Money

open Relational Interleaving Ledger

/-- The checks on the amount. -/
def InitializePaymentDto.accepted (dto : InitializePaymentDto) : Bool :=
  10000 ≤ dto.amountKobo && dto.amountKobo ≤ 1000000000

/-! ### How a whole is divided -/

/-- The products that are floored. -/
def products (payment : PaymentForPosting) (split : SplitForPosting) : List ℤ :=
  if payment.entertainerId.isSome then
    [payment.grossAmountKobo * split.entertainerBps, payment.grossAmountKobo * split.venueBps]
  else [payment.grossAmountKobo * (split.venueBps + split.entertainerBps)]

/-- An amount that was accepted, and shares of a whole. -/
structure Divisible (payment : PaymentForPosting) (split : SplitForPosting) : Prop where
  positive : 0 < payment.grossAmountKobo
  bounded : payment.grossAmountKobo ≤ 1000000000
  entertainer : 0 ≤ split.entertainerBps
  venue : 0 ≤ split.venueBps
  platform : 0 ≤ split.platformBps
  sum : split.entertainerBps + split.venueBps + split.platformBps = 10000

section Division

variable {payment : PaymentForPosting} {split : SplitForPosting}

lemma applyBasisPoints_nonneg {x bps : ℤ} (hx : 0 ≤ x) (hbps : 0 ≤ bps) : 0 ≤ applyBasisPoints x bps :=
  Int.ediv_nonneg (mul_nonneg hx hbps) (by decide)

/-- A share, scaled back up, is at most what it was floored from. -/
lemma applyBasisPoints_le (x bps : ℤ) : 10000 * applyBasisPoints x bps ≤ x * bps :=
  Int.mul_ediv_self_le (by decide)

lemma Divisible.product_le (h : Divisible payment split) {bps : ℤ} (hbps : bps ≤ 10000) :
    payment.grossAmountKobo * bps ≤ payment.grossAmountKobo * 10000 :=
  mul_le_mul_of_nonneg_left hbps h.positive.le

lemma Divisible.products_le (h : Divisible payment split) : ∀ x ∈ products payment split,
    0 ≤ x ∧ x ≤ 1000000000 * 10000 := by
  have hfit : ∀ bps, 0 ≤ bps → bps ≤ 10000 → 0 ≤ payment.grossAmountKobo * bps ∧
      payment.grossAmountKobo * bps ≤ 1000000000 * 10000 := by
    intro bps hnonneg hle
    have hproduct := h.product_le hle
    have hbounded := h.bounded
    exact ⟨mul_nonneg h.positive.le hnonneg, by omega⟩
  obtain ⟨-, -, he, hv, hp, hsum⟩ := h
  intro x hx
  unfold products at hx
  split at hx
  · simp only [List.mem_cons, List.not_mem_nil, or_false] at hx
    rcases hx with rfl | rfl
    · exact hfit _ he (by omega)
    · exact hfit _ hv (by omega)
  · rw [List.mem_singleton.mp hx]
    exact hfit _ (by omega) (by omega)

lemma Divisible.products_fit (h : Divisible payment split) : ∀ x ∈ products payment split,
    0 ≤ x ∧ x < 2 ^ 53 := by
  intro x hx
  obtain ⟨hnonneg, hle⟩ := h.products_le x hx
  exact ⟨hnonneg, by omega⟩

lemma Divisible.entertainerShare_nonneg (h : Divisible payment split) : 0 ≤ entertainerShare payment split := by
  unfold entertainerShare
  split
  · exact applyBasisPoints_nonneg h.positive.le h.entertainer
  · exact le_rfl

lemma Divisible.venueShare_nonneg (h : Divisible payment split) : 0 ≤ venueShare payment split := by
  refine applyBasisPoints_nonneg h.positive.le ?_
  have he := h.entertainer
  have hv := h.venue
  split <;> omega

/-- The floored shares leave the platform its remainder. -/
lemma Divisible.platformShare_nonneg (h : Divisible payment split) : 0 ≤ platformShare payment split := by
  obtain ⟨hpos, -, he, hv, hp, hsum⟩ := h
  have hall : payment.grossAmountKobo * (split.entertainerBps + split.venueBps) ≤
      payment.grossAmountKobo * 10000 := mul_le_mul_of_nonneg_left (by omega) hpos.le
  rw [mul_add] at hall
  by_cases hent : payment.entertainerId.isSome = true
  · have hvenue : venueShare payment split = applyBasisPoints payment.grossAmountKobo split.venueBps := by
      simp [venueShare, hent]
    rw [platformShare, hvenue, entertainerShare, if_pos hent]
    have hle := applyBasisPoints_le payment.grossAmountKobo split.entertainerBps
    have hle' := applyBasisPoints_le payment.grossAmountKobo split.venueBps
    omega
  · have hvenue : venueShare payment split =
        applyBasisPoints payment.grossAmountKobo (split.venueBps + split.entertainerBps) := by
      simp [venueShare, hent]
    rw [platformShare, hvenue, entertainerShare, if_neg hent]
    have hle := applyBasisPoints_le payment.grossAmountKobo (split.venueBps + split.entertainerBps)
    rw [mul_add] at hle
    omega

lemma totalOf_line {d : LedgerDirection} {type : LedgerAccountType} {owner : Option Uuid} {x : ℤ}
    (hx : 0 ≤ x) : totalOf d (line type owner x) = if d = .CREDIT then x else 0 := by
  unfold line
  split
  · cases d <;> simp [totalOf]
  · obtain rfl : x = 0 := by omega
    simp [totalOf]

lemma totalOf_append {d : LedgerDirection} {as bs : List LedgerEntrySpec} :
    totalOf d (as ++ bs) = totalOf d as + totalOf d bs := by
  simp [totalOf]

/-- No line is over what was paid. -/
lemma Divisible.amounts (h : Divisible payment split) {e : LedgerEntrySpec}
    (he : e ∈ paymentEntries payment split) : 0 < e.amountKobo ∧ e.amountKobo ≤ 1000000000 := by
  have hentertainer := h.entertainerShare_nonneg
  have hvenue := h.venueShare_nonneg
  have hplatform := h.platformShare_nonneg
  have hpositive := h.positive
  have hbounded := h.bounded
  have hparts : entertainerShare payment split + venueShare payment split + platformShare payment split =
      payment.grossAmountKobo := by unfold platformShare; omega
  simp only [paymentEntries, List.mem_cons, List.mem_append, mem_line] at he
  obtain rfl | (⟨hpos, rfl⟩ | ⟨hpos, rfl⟩) | ⟨hpos, rfl⟩ := he
  · exact ⟨hpositive, hbounded⟩
  · exact ⟨hpos, by simp only; omega⟩
  · exact ⟨hpos, by simp only; omega⟩
  · exact ⟨hpos, by simp only; omega⟩

/-- As much is debited as credited: what was paid. -/
lemma Divisible.totals (h : Divisible payment split) (d : LedgerDirection) :
    totalOf d (paymentEntries payment split) = payment.grossAmountKobo := by
  have hcons : totalOf d (paymentEntries payment split) =
      (if d = .DEBIT then payment.grossAmountKobo else 0) +
        totalOf d (line .ENTERTAINER_PAYABLE payment.entertainerId (entertainerShare payment split) ++
          line .VENUE_PAYABLE (some payment.venueId) (venueShare payment split) ++
          line .PLATFORM_REVENUE none (platformShare payment split)) := by
    cases d <;> simp [totalOf, paymentEntries]
  simp only [hcons, totalOf_append, totalOf_line h.entertainerShare_nonneg,
    totalOf_line h.venueShare_nonneg, totalOf_line h.platformShare_nonneg]
  cases d <;> simp [platformShare]

lemma Divisible.balanced (h : Divisible payment split) : assertBalanced (paymentEntries payment split) = .ok () := by
  refine assertBalanced_ok.mpr ⟨by simp [paymentEntries], fun e he => ?_, by rw [h.totals, h.totals]⟩
  obtain ⟨hpos, hle⟩ := h.amounts he
  refine ⟨?_, hpos⟩
  simp only [isSafeInteger, Bool.and_eq_true, decide_eq_true_eq]
  omega

/-- **A whole is divided** into lines that balance. -/
theorem Divisible.computed (h : Divisible payment split) :
    computePaymentEntries payment split = .ok (paymentEntries payment split) := by
  have hvalid : assertValidSplit split = .ok () := by
    have hany : ([split.entertainerBps, split.venueBps, split.platformBps].any (· < 0)) = false := by
      simp [h.entertainer, h.venue, h.platform]
    have hsum : [split.entertainerBps, split.venueBps, split.platformBps].foldl (· + ·) 0 =
        BASIS_POINTS_TOTAL := by
      simpa [BASIS_POINTS_TOTAL] using h.sum
    simp only [assertValidSplit, hany, hsum, Bool.false_eq_true, ite_false, ne_eq, not_true_eq_false]
  have hgross : (!isSafeInteger payment.grossAmountKobo || decide (payment.grossAmountKobo ≤ 0)) = false := by
    have hpositive := h.positive
    have hbounded := h.bounded
    simp only [isSafeInteger, Bool.or_eq_false_iff, Bool.not_eq_false', Bool.and_eq_true, decide_eq_true_eq,
      decide_eq_false_iff_not]
    omega
  simp only [computePaymentEntries, hvalid, hgross, h.balanced, bind, Except.bind, Bool.false_eq_true,
    ite_false]

end Division

/-! ### What settling throws -/

/-- The errors of entries that do not add up, and of an amount that is not positive. -/
def Refusal : Err → Prop
  | .invalidPosting _ | .unbalancedLedger _ _ | .checkViolation => True
  | _ => False

section Throws

variable {specs : List LedgerEntrySpec} {transactionId : Uuid}

lemma resolveAccountId_throws {type : LedgerAccountType} {owner : Option Uuid} :
    (resolveAccountId type owner).Throws (¬ Refusal ·) := by
  refine Tx.throws_bind ?_ fun _ => Tx.throws_bind Tx.throws_read fun account => ?_
  · refine Tx.throws_bind Tx.throws_freshId fun id => Tx.throws_bind Tx.throws_read fun existing => ?_
    split
    · exact Model.create_throws not_false
    · exact Tx.throws_pure
  · cases account
    · exact Tx.throws_throw not_false
    · exact Tx.throws_pure

lemma accountIds_throws (ids : AccountIds) : (accountIds specs ids).Throws (¬ Refusal ·) := by
  induction specs generalizing ids with
  | nil => exact Tx.throws_pure
  | cons spec specs ih =>
    unfold accountIds
    split
    · exact ih ids
    · exact Tx.throws_bind resolveAccountId_throws fun id => ih _

/-- Entries that balance are posted. -/
lemma post_throws {origin : Origin} (h : assertBalanced specs = .ok ()) :
    (post origin transactionId specs).Throws (¬ Refusal ·) := by
  refine Tx.throws_bind (Tx.throws_liftExcept fun e he => ?_) fun _ =>
    Tx.throws_bind (accountIds_throws []) fun _ => Tx.throws_bind Tx.throws_now fun _ => Tx.throws_write not_false
  rw [h] at he
  cases he

lemma createPayout_throws {account : Uuid} {amount : ℤ} (h : 0 < amount) :
    (createPayout account transactionId amount).Throws (¬ Refusal ·) := by
  refine Tx.throws_bind Tx.throws_freshId fun id => Tx.throws_bind Tx.throws_now fun now => ?_
  rw [if_neg (not_le.mpr h)]
  exact Tx.throws_bind (Model.create_throws not_false) fun _ => Tx.throws_pure

lemma createPayouts_throws (h : ∀ spec ∈ specs, 0 < spec.amountKobo) :
    (createPayouts transactionId specs).Throws (¬ Refusal ·) := by
  induction specs with
  | nil => exact Tx.throws_pure
  | cons spec specs ih =>
    obtain ⟨hspec, hspecs⟩ := List.forall_mem_cons.mp h
    unfold createPayouts
    split
    · exact ih hspecs
    · exact Tx.throws_bind resolveAccountId_throws fun _ => Tx.throws_bind (createPayout_throws hspec) fun _ =>
        Tx.throws_bind (ih hspecs) fun _ => Tx.throws_pure

lemma settleTransaction_throws (h : assertBalanced specs = .ok ()) :
    (settleTransaction transactionId specs).Throws (¬ Refusal ·) := by
  have hpositive : ∀ spec ∈ specs, 0 < spec.amountKobo := fun spec hspec =>
    ((assertBalanced_ok.mp h).2.1 spec hspec).2
  refine Tx.throws_bind (Tx.throws_bind Tx.throws_now fun _ => Model.updateMany_throws not_false) fun count => ?_
  split
  · exact Tx.throws_pure
  · exact Tx.throws_bind (post_throws h) fun _ =>
      Tx.throws_bind (createPayouts_throws hpositive) fun _ => Tx.throws_pure

end Throws

/-- The run found the payment and its rule, and the entries of the two could not be computed. -/
def Uncomputed (reference : String) (log : List (Did App)) (e : Err) : Prop :=
  ∃ payment rule w s s' w₁ s₁ s₁', .stmt (.settleFind reference) w s s' ∈ log ∧
    s.payments.find (·.externalReference == reference) = some payment ∧
    .stmt (.settleSplitRule rule.id) w₁ s₁ s₁' ∈ log ∧ rule ∈ s₁.splitRules.rows ∧
    payment.splitRuleId = some rule.id ∧
    computePaymentEntries (paymentForPosting payment) (splitForPosting rule) = .error e

/-- A refusal that a settlement ends in comes from the entries, if it did not come from others. -/
def explained (o : GuestOperation) (log : List (Did App)) (r : Except Err Unit) : Prop :=
  ∀ reference, o = .service (.settle reference) → ∀ e, r = .error e → Refusal e →
    Receives log e ∨ Uncomputed reference log e

abbrev Settling (reference : String) {α : Type} (p : Prog App α) (log : List (Did App)) : Prop :=
  Obeys (logging explained) (fun g r => ∀ e, r = .error e → Refusal e →
    Receives g.2 e ∨ Uncomputed reference g.2 e) p (.service (.settle reference), log)

section Programs

variable {reference : String} {α : Type} {p : Prog App α} {log : List (Did App)}

abbrev Unrefusing {α : Type} (p : Prog App α) : Prop := Innocent Refusal explained p

lemma settling_of_unrefusing (h : Unrefusing p) : Settling reference p log :=
  Obeys.mono (h _) fun _ _ hr e he hrefusal => .inl (hr e he hrefusal)

lemma unrefusing_statement {site : Site} {m : Tx α} (h : m.Throws (¬ Refusal ·)) :
    Unrefusing (statement site m) :=
  innocent_command fun _ _ _ he => h.run he

lemma reload_unrefusing {id : Uuid} : Unrefusing (some <$> reload id) :=
  innocent_bind (unrefusing_statement (Model.findUniqueOrThrow_throws not_false)) fun _ => innocent_ret

lemma transition_unrefusing {id : Uuid} {source : List PaymentStatus} {target : PaymentStatus} :
    Unrefusing (transition id source target) :=
  unrefusing_statement (Tx.throws_bind Tx.throws_now fun _ =>
    Tx.throws_bind (Model.updateMany_throws not_false) fun _ => Tx.throws_pure)

lemma enqueuePayouts_unrefusing {ids : List Uuid} : Unrefusing (enqueuePayouts ids) := by
  induction ids with
  | nil => exact innocent_ret
  | cons id ids ih => exact innocent_bind (innocent_attempt innocent_request) fun _ => ih

/-- What is left once the entries were computed. -/
lemma posting_unrefusing {id : Uuid} {specs : List LedgerEntrySpec} (h : assertBalanced specs = .ok ()) :
    Unrefusing (do
      match ← statement (.settleTransaction id) (settleTransaction id specs) with
      | none => some <$> reload id
      | some payoutIds => do
        enqueuePayouts payoutIds
        some <$> reload id) := by
  refine innocent_bind (unrefusing_statement (settleTransaction_throws h)) fun settled => ?_
  rcases settled with _ | payoutIds
  · exact reload_unrefusing
  · exact innocent_bind enqueuePayouts_unrefusing fun _ => reload_unrefusing

theorem settle_settling : Settling reference (settle reference) [] := by
  refine obeys_bind.mpr ⟨fun w s _ => ⟨trivial, ?_, fun e e' h _ => ?_⟩, fun e e' h _ => ?_⟩
  · show Settling reference _ [.stmt (.settleFind reference) w s s]
    rcases hfound : s.payments.find (·.externalReference == reference) with _ | payment <;>
      simp only [hfound]
    · exact settling_of_unrefusing innocent_ret
    split
    · exact settling_of_unrefusing innocent_ret
    refine obeys_bind.mpr (obeys_request (M := logging explained) trivial fun verification => ?_)
    rcases verification with e | verification
    · exact fun e' h _ => by cases h; exact .inl receives_answered
    simp only
    split
    · exact settling_of_unrefusing (innocent_bind transition_unrefusing fun _ => reload_unrefusing)
    · exact settling_of_unrefusing (innocent_bind transition_unrefusing fun _ => reload_unrefusing)
    · exact settling_of_unrefusing (innocent_bind transition_unrefusing fun _ => reload_unrefusing)
    split
    · exact settling_of_unrefusing (innocent_raise not_false)
    unfold settleVerified
    split
    · exact settling_of_unrefusing (innocent_raise not_false)
    rename_i splitRuleId hsnap
    refine obeys_bind.mpr (obeys_tried (fun w₁ s₁ rule s₁' _ hm => ⟨trivial, ?_⟩)
      (fun w₁ s₁ e _ he => ⟨trivial, fun e' h hrefusal => ?_⟩) (fun _ _ _ e e' h _ => ?_)
      fun e e' h _ => ?_)
    · obtain ⟨hrule, rfl⟩ := findUniqueOrThrow_ok hm
      have hid : rule.id = splitRuleId := by simpa using Table.of_find hrule
      subst hid
      refine obeys_bind.mpr (obeys_ofExcept.mpr ?_)
      rcases hcomputed : computePaymentEntries (paymentForPosting payment) (splitForPosting rule) with e | specs
      · refine fun e' h _ => ?_
        cases h
        exact .inr ⟨payment, rule, w, s, s, w₁, s₁', s₁', by simp [logging], hfound, by simp [logging],
          Table.mem_of_find hrule, hsnap, hcomputed⟩
      · exact settling_of_unrefusing (posting_unrefusing (computePaymentEntries_ok hcomputed).1)
    · cases h
      exact absurd hrefusal ((Model.findUniqueOrThrow_throws (E := fun e => ¬ Refusal e) not_false).run he)
    · cases h
      exact .inl receives_failed
    · cases h
      exact .inl receives_failed
  · cases h
    exact .inl receives_failed
  · cases h
    exact .inl receives_failed

theorem guestProgram_explained {config : PaymentsConfig} (o : GuestOperation) :
    Obeys (logging explained) (logging explained).post (o.program config) (o, []) := by
  by_cases hsettle : ∃ reference, o = .service (.settle reference)
  · obtain ⟨reference, rfl⟩ := hsettle
    have hbind : Settling reference (settle reference >>= fun _ => (pure () : Prog App Unit)) [] := by
      refine obeys_bind.mpr (Obeys.mono settle_settling fun g r hr => ?_)
      rcases r with e | settled
      · exact fun e' h => by cases h; exact hr e rfl
      · exact fun e' h => by cases h
    refine Obeys.mono (logging_label hbind) fun g r ⟨hlabel, hr⟩ reference' heq => ?_
    rw [hlabel] at heq
    cases heq
    exact hr
  · refine Obeys.mono (obeys_of_spares (I := fun g : GuestOperation × List (Did App) => g.1 = o)
      (Prog.spares_any _) (fun _ _ _ _ _ hg _ _ => ⟨trivial, hg⟩) (fun _ _ _ hg _ => hg)
      (fun _ _ hg _ => ⟨trivial, hg⟩) (fun _ _ _ hg _ => hg) rfl) fun g r hg reference heq => ?_
    exact absurd ⟨reference, hg.symm.trans heq⟩ hsettle

end Programs

/-! ### Whole runs -/

/-- The bodies are those the checks let through, and the settings row keeps to its own. -/
def isAccepted : Event App GuestOperation Beside → Bool
  | .start (.initializePayment dto) => dto.accepted
  | .move (.governance (.start op)) => op.accepted
  | .move (.governance (.others rest)) => decide (SplitRules.FeeInRange rest)
  | _ => true

def Accepted (_p : Pool App GuestOperation Governance) (ev : Event App GuestOperation Beside) : Prop :=
  isAccepted ev = true

instance (p : Pool App GuestOperation Governance) (ev : Event App GuestOperation Beside) :
    Decidable (Accepted p ev) :=
  inferInstanceAs (Decidable (isAccepted ev = true))

section Runs

variable {config : PaymentsConfig} {hashToken : String → String} {old : List Uuid} {db₀ : Db}
  {p p' p₀ : Pool App GuestOperation Governance} {ev : Event App GuestOperation Beside}

/-- The rules, and the calls about them, change by such a call's turn only. -/
lemma governed_pool (h : Governed hashToken db₀ p) (hs : step (governed config hashToken) p ev = some p') :
    p'.out.pool p'.store = p.out.pool p.store ∨ ∃ e, ev = .move (.governance e) ∧
      Isolation.step (SplitRules.Operation.call hashToken) (p.out.pool p.store) e =
        some (p'.out.pool p'.store) := by
  have hrely : (relyGuarantee Keeps Divides (fun _ _ => True) GuestOperation).Relies p ev := by
    cases ev <;> first
      | trivial
      | exact fun r nm eff k hr hp => ⟨h.steady.seen _ r hr, trivial⟩
  by_cases hev : ∃ v, ev = .move v
  · obtain ⟨v, rfl⟩ := hev
    obtain ⟨s, x, hm, rfl⟩ := step_move hs
    cases v with
    | governance e =>
      obtain ⟨q, hq, heq⟩ := Option.map_eq_some_iff.mp hm
      obtain ⟨rfl, rfl⟩ := Prod.mk.inj heq
      exact .inr ⟨e, rfl, hq⟩
    | others v =>
      obtain ⟨db₁, he, heq⟩ := Option.map_eq_some_iff.mp hm
      obtain ⟨rfl, rfl⟩ := Prod.mk.inj heq
      unfold elsewhere at he
      split at he <;> cases he
      exact .inl rfl
  · have hrules : p'.store.splitRules = p.store.splitRules := by
      rcases h.steady.obeys.step_store hrely hs with ⟨i, r, nm, w, -, hexecuted⟩ | ⟨-, hstore⟩ | ⟨v, hv, -⟩
      · exact hexecuted.guar.2.1
      · rw [hstore]
      · exact absurd ⟨v, hv⟩ hev
    rw [governed_out hs fun v hv => hev ⟨v, hv⟩, Governance.pool, hrules]
    exact .inl rfl

/-- What is known in every run whose bodies are accepted. -/
structure AcceptedSince (hashToken : String → String) (db₀ : Db) (p : Pool App GuestOperation Governance) :
    Prop where
  governed : Governed hashToken db₀ p
  rules : Isolation.Made SplitRules.FeeInRange
    (SplitRules.WholeSince (db₀.splitRules.rows.map SplitRule.id)) (p.out.pool p.store)
  labels : ∀ r ∈ p.runs, ∀ dto, r.label = .initializePayment dto → dto.accepted = true

theorem acceptedSince_step (h : AcceptedSince hashToken db₀ p) (hev : Accepted p ev)
    (hs : step (governed config hashToken) p ev = some p') : AcceptedSince hashToken db₀ p' := by
  refine ⟨governed_step h.governed hs, ?_, fun r' hr' dto hlabel => ?_⟩
  · rcases governed_pool h.governed hs with hsame | ⟨e, rfl, hturn⟩
    · rw [hsame]; exact h.rules
    · refine Isolation.made_step h.rules ?_ hturn
      cases e with
      | start op => exact SplitRules.call_makes hev
      | others rest => exact of_decide_eq_true (p := SplitRules.FeeInRange rest) hev
      | exec i w => trivial
      | rollback i => trivial
  · obtain ⟨j, hj⟩ := List.getElem?_of_mem hr'
    rcases step_run hs hj with ⟨hold, -⟩ | ⟨l, rfl, -, rfl⟩ | ⟨r, ds, hlive, hgoes, -⟩
    · exact h.labels r' (List.mem_of_getElem? hold) dto hlabel
    · obtain rfl : l = .initializePayment dto := hlabel
      exact hev
    · exact h.labels r (Monitor.mem_of_live hlive) dto (hgoes.label ▸ hlabel)

/-- What posting a payment by a rule comes to. -/
structure PostsWell (payment : PaymentTransaction) (rule : SplitRule) (specs : List LedgerEntrySpec) :
    Prop where
  computed : computePaymentEntries (paymentForPosting payment) (splitForPosting rule) = .ok specs
  posted : ∀ origin transactionId, (post origin transactionId specs).Throws (¬ Refusal ·)
  amounts : ∀ spec ∈ specs, 0 < spec.amountKobo ∧ spec.amountKobo < 2 ^ 31
  products : ∀ x ∈ products (paymentForPosting payment) (splitForPosting rule), 0 ≤ x ∧ x < 2 ^ 53
  owed : ∀ transactionId, (createPayouts transactionId specs).Throws (¬ Refusal ·)

lemma Divisible.postsWell {payment : PaymentTransaction} {rule : SplitRule}
    (h : Divisible (paymentForPosting payment) (splitForPosting rule)) :
    PostsWell payment rule (paymentEntries (paymentForPosting payment) (splitForPosting rule)) where
  computed := h.computed
  posted _ _ := post_throws h.balanced
  amounts spec hspec := by
    obtain ⟨hpos, hle⟩ := h.amounts hspec
    exact ⟨hpos, by omega⟩
  products := h.products_fit
  owed _ := createPayouts_throws fun spec hspec => (h.amounts hspec).1

/-- **Every accepted payment can be settled**: its entries are computed, fit their columns and are posted
and paid out; and no settlement of it throws any of the errors that say otherwise. -/
theorem accepted_settles (config : PaymentsConfig) (hashToken : String → String) (hruns : p₀.runs = [])
    (hrules : SplitRules.Migrated (p₀.out.pool p₀.store)) (hfee : SplitRules.FeeInRange p₀.out.rest)
    (hreach : Reach (governed config hashToken) Accepted p₀ p) {r : Run App GuestOperation}
    (hr : r ∈ p.runs) {payment : PaymentTransaction} {rule : SplitRule} (hquotes : Quotes r payment rule)
    (hnew : ∀ r₀ ∈ p₀.store.splitRules.rows, r₀.id ≠ rule.id) :
    (∃ specs, PostsWell payment rule specs) ∧ ∀ r' ∈ p.runs,
      r'.label = .service (.settle payment.externalReference) → ∀ e, Refusal e → r'.prog = .raise e →
        Receives r'.log e := by
  have hsince : AcceptedSince hashToken p₀.store p := hreach.keeps
    (fun p ev p' h hev hs => acceptedSince_step h hev hs)
    ⟨governed_start hruns hrules,
      Isolation.made_start hfee (fun r hr => .inl (List.mem_map_of_mem hr)) hrules.idle,
      fun r hr => by simp [hruns] at hr⟩
  have hgoverned := hsince.governed
  obtain ⟨⟨dto, hlabel⟩, ds, w, s, s', hlog, hcreated, venueId, w₀, s₀, s₁, hfound, hactive⟩ := hquotes
  -- the payment is for the amount that was accepted, under the rule that was found
  obtain ⟨hamount, hsnap⟩ := hgoverned.kept r hr ds _ w s s' hlog rfl dto ((foldl_label ds _).trans hlabel)
    payment hcreated
  have hsnap := hsnap rule (found_of_mem hfound hactive)
  have hdto : dto.accepted = true := hsince.labels r hr dto hlabel
  simp only [InitializePaymentDto.accepted, Bool.and_eq_true, decide_eq_true_eq, ← hamount] at hdto
  obtain ⟨-, -, hbefore⟩ := hgoverned.between r hr _ w s s'
    (hlog.subset (List.mem_append_right _ (List.mem_singleton_self _)))
  obtain ⟨current, hcurrent, hquoted⟩ := mem_map_of_prefix hbefore.payments
    (show payment ∈ s'.payments.rows by rw [hcreated]; simp)
  -- the rule is still there, and whole
  obtain ⟨-, hread, hafter⟩ := hgoverned.between r hr _ w₀ s₀ s₁
    (hlog.subset (List.mem_append_left _ hfound))
  obtain ⟨rule₁, hrule₁, hterms⟩ := mem_map_of_prefix (hread.trans hafter).splitRules (activeRule_mem hactive)
  have hrid : rule₁.id = rule.id := congrArg Prod.fst hterms
  have hsplit : splitForPosting rule₁ = splitForPosting rule := congrArg Prod.snd hterms
  have hwhole : SplitRules.Whole rule₁ := by
    refine (hsince.rules.rows rule₁ hrule₁).resolve_left fun hold => ?_
    obtain ⟨r₀, hr₀, hid⟩ := List.mem_map.mp hold
    exact hnew r₀ hr₀ (hid.trans hrid)
  have hdivisible : Divisible (paymentForPosting payment) (splitForPosting rule) := by
    rw [← hsplit]
    exact ⟨by show 0 < payment.grossAmountKobo; omega, hdto.2, hwhole.entertainer, hwhole.venue,
      hwhole.platform, hwhole.sum⟩
  refine ⟨⟨_, hdivisible.postsWell⟩, fun r' hr' hsettle e hrefusal hraise => ?_⟩
  rcases logging_raised guestProgram_explained hruns hreach hr' hraise _ hsettle e rfl hrefusal with
    hreceived | ⟨q, rule', w₁, t₁, t₁', w₂, t₂, t₂', hfind, hq, hread', hrule', hsnap', herror⟩
  · exact hreceived
  -- what the settlement found is this payment and this rule
  obtain ⟨-, hq₁, hq₂⟩ := hgoverned.between r' hr' _ w₁ t₁ t₁' hfind
  obtain ⟨q', hq', hquoted'⟩ := mem_map_of_prefix (hq₁.trans hq₂).payments (Table.mem_of_find hq)
  have href : q'.externalReference = current.externalReference := by
    have hfound' : q.externalReference = payment.externalReference := by simpa using Table.of_find hq
    have h₁ := congrArg PaymentTransaction.externalReference hquoted'
    have h₂ := congrArg PaymentTransaction.externalReference hquoted
    exact h₁.trans (hfound'.trans h₂.symm)
  obtain rfl : q' = current := Table.eq_of_key (k := .text q'.externalReference) hq' hcurrent
    (by simp [Indexed.keys]) (by simp [Indexed.keys, href])
  obtain ⟨-, hqsnap, hqposting⟩ := of_quoted (hquoted'.symm.trans hquoted)
  obtain ⟨-, hr₁, hr₂⟩ := hgoverned.between r' hr' _ w₂ t₂ t₂' hread'
  obtain ⟨rule₂, hrule₂, hterms₂⟩ := mem_map_of_prefix (hr₁.trans hr₂).splitRules hrule'
  have hsame : rule₂.id = rule₁.id := by
    have hrid₂ : rule₂.id = rule'.id := congrArg Prod.fst hterms₂
    rw [hqsnap, hsnap, Option.some.injEq] at hsnap'
    rw [hrid₂, hrid, hsnap']
  obtain rfl : rule₂ = rule₁ := Table.eq_of_key (k := .id rule₂.id) hrule₂ hrule₁
    (by simp [Indexed.keys]) (by simp [Indexed.keys, hsame])
  have hsplit' : splitForPosting rule' = splitForPosting rule :=
    (congrArg Prod.snd hterms₂).symm.trans hsplit
  rw [hqposting, hsplit', hdivisible.computed] at herror
  cases herror

end Runs

/-! ### An override, a payment under it, and its settlement -/

def overriddenThenPaid : List (Event App GuestOperation Beside) :=
  (.start (SplitRules.overrideTo 9500 0) :: SplitRules.execs 0 [1, 2, 3, 4, 5, 6, 7]).map
      (fun e => .move (.governance e)) ++
    .start (.initializePayment sampleDto) :: execs 0 [8, 9, 10] ++
    .start (.service (.settle "pay_nanoid")) :: execs 1 [11] ++ asks 1 agreeable ++ execs 1 [12, 13]

/-- A payment under a rule that was not there at first, and its posting. -/
def settledUnderNewRule (p : Pool App GuestOperation Governance) : Bool := p.runs.any fun r =>
  (firstQuote r).any fun quote => (quote.2.id != uid 5) &&
    p.store.postings.any fun po => po.origin == .settlement && po.transactionId == quote.1.id

theorem accepted_settles_sample : ∃ p,
    run (governed sampleConfig (fun token => token)) beforeQuotes overriddenThenPaid = some p ∧
    ∃ r ∈ p.runs, ∃ payment rule, Quotes r payment rule ∧
      (∃ po ∈ p.store.postings, po.origin = .settlement ∧ po.transactionId = payment.id) ∧
      (∃ specs, PostsWell payment rule specs) ∧ ∀ r' ∈ p.runs,
        r'.label = .service (.settle payment.externalReference) → ∀ e, Refusal e → r'.prog = .raise e →
          Receives r'.log e := by
  have halong : Along (governed sampleConfig (fun token => token)) Accepted beforeQuotes
      overriddenThenPaid := by decide +kernel
  obtain ⟨p, hp, hsettled⟩ := (Option.any_eq_true _ _).mp
    (by decide +kernel : ((run (governed sampleConfig (fun token => token)) beforeQuotes
      overriddenThenPaid).any settledUnderNewRule) = true)
  simp only [settledUnderNewRule, List.any_eq_true, Option.any_eq_true, Bool.and_eq_true, bne_iff_ne,
    beq_iff_eq] at hsettled
  obtain ⟨r, hr, ⟨payment, rule⟩, hquote, hid, po, hpo, horigin, hpaid⟩ := hsettled
  have hquotes := quotes_of_firstQuote hquote
  have hrules : SplitRules.Migrated (beforeQuotes.out.pool beforeQuotes.store) :=
    ⟨rfl, fun r hr => by rw [List.mem_singleton.mp hr]; decide⟩
  refine ⟨p, hp, r, hr, payment, rule, hquotes, ⟨po, hpo, horigin, hpaid⟩, ?_⟩
  exact accepted_settles sampleConfig _ rfl hrules (by decide) (reach_of_run halong hp) hr hquotes
    fun r₀ hr₀ heq => hid (heq.symm.trans (congrArg SplitRule.id (List.mem_singleton.mp hr₀)))

end Splitcore.Money
