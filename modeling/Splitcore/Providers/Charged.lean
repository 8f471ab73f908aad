import Splitcore.Money.Dated
import Splitcore.Money.Incurred
import Splitcore.Providers.PaystackPayment

/-!
No tip is credited, and nothing is owed for one, before Paystack has confirmed the charge of its full amount.
-/

namespace Splitcore.Providers

open Relational Interleaving Ledger Money

/-! ### What is claimed -/

/-- What is answered about charges is made of a response. -/
def ChargedByResponse {V : Type} (_ : Pool App GuestOperation Unit) (ev : Event App GuestOperation V) : Prop :=
  ∀ i o, ev = .answer i o → ∀ reference, ∃ fetched, Verifies fetched (o (.verifyPayment reference))

/-- What the log says of an answer. -/
def OfCharge : Did App → Prop
  | .answered (.verifyPayment _) answer => ∃ fetched, Verifies fetched answer
  | _ => True

/-- The run was told so: by a response that charges this amount, for this reference. -/
def Confirmed (log : List (Did App)) (reference : String) (amountKobo : ℤ) : Prop := ∃ fetched answer,
  .answered (.verifyPayment reference) answer ∈ log ∧ Verifies fetched answer ∧ Charges fetched amountKobo

/-- The payment is charged in full. -/
def ChargedFor (p : Pool App GuestOperation Unit) (transactionId : Uuid) : Prop :=
  ∃ payment ∈ p.store.payments.rows, payment.id = transactionId ∧
    ∃ r ∈ p.runs, Confirmed r.log payment.externalReference payment.grossAmountKobo

/-! ### The monitor -/

/-- The payments a run looked up to settle them, and the charges it was told of. -/
structure Charging where
  found : List PaymentTransaction
  charged : List (String × ℤ)

def Charging.next (g : Charging) : Did App → Charging
  | .stmt (.settleFind reference) _ s _ =>
    { g with found := g.found ++ (s.payments.find (·.externalReference == reference)).toList }
  | .answered (.verifyPayment reference) (.ok verification) =>
    if verification.status = .success ∧ sameCurrency verification = true then
      { g with charged := (reference, verification.amountKobo) :: g.charged }
    else g
  | _ => g

/-- It may be settled: it was looked up, and its amount was charged. -/
structure Chargeable (g : Charging) (payment : PaymentTransaction) : Prop where
  found : payment ∈ g.found
  charged : (payment.externalReference, payment.grossAmountKobo) ∈ g.charged

/-- Payments are settled once they are chargeable. -/
def charging : Monitor App GuestOperation where
  State := Charging
  init _ _ := ⟨[], []⟩
  next := Charging.next
  rely _ _ _ := True
  guar g site _ _ _ := ∀ id, site = .settleTransaction id → ∃ payment, payment.id = id ∧ Chargeable g payment

section Obeying

variable {α : Type} {g : Charging} {payment : PaymentTransaction} {reference : String} {config : PaymentsConfig}

lemma Chargeable.next (h : Chargeable g payment) (d : Did App) : Chargeable (g.next d) payment := by
  unfold Charging.next
  split
  · exact ⟨List.mem_append_left _ h.found, h.charged⟩
  · split
    · exact ⟨h.found, List.mem_cons_of_mem _ h.charged⟩
    · exact h
  · exact h

/-- A program that settles nothing. -/
lemma charging_none {prog : Prog App α} (h : Settles none prog) : Obeys charging (fun _ _ => True) prog g :=
  obeys_of_each (M := charging) (I := fun _ => True) h
    (fun _ _ _ _ _ _ _ hnone id hsite => by cases hnone id hsite) (fun _ _ => trivial) (fun _ _ _ => trivial)
    trivial

/-- A program that settles a payment that is chargeable. -/
lemma charging_some {prog : Prog App α} (h : Settles (some payment.id) prog) (hg : Chargeable g payment) :
    Obeys charging (fun _ _ => True) prog g :=
  obeys_of_each (M := charging) (I := fun g : Charging => Chargeable g payment) h
    (fun _ _ _ _ _ hg _ honly id hsite => ⟨payment, Option.some.inj (honly id hsite), hg⟩)
    (fun _ _ => trivial) (fun _ d hg => hg.next d) hg

lemma settle_charging : Obeys charging (fun _ _ => True) (settle reference) g := by
  refine obeys_bind.mpr (obeys_query (fun w s _ => ⟨nofun, ?_⟩) fun _ _ => trivial)
  rcases hfind : s.payments.find (·.externalReference == reference) with _ | payment
  · trivial
  have href : payment.externalReference = reference := by simpa using Table.of_find hfind
  subst href
  dsimp only
  split
  · trivial
  refine obeys_bind.mpr (obeys_request trivial fun answer => ?_)
  rcases answer with e | verification
  · trivial
  dsimp only
  split
  · exact charging_none (Prog.each_bind transition_settles fun _ => reload_settles)
  · exact charging_none (Prog.each_bind transition_settles fun _ => reload_settles)
  · exact charging_none (Prog.each_bind transition_settles fun _ => reload_settles)
  rename_i hsuccess
  split
  · trivial
  rename_i hmatches
  obtain ⟨hamount, hcurrency⟩ := integrityError_none.mp hmatches
  refine charging_some settleVerified_settles ⟨?_, ?_⟩
  · simp [charging, Charging.next, hfind, hsuccess, hcurrency]
  · simp [charging, Charging.next, hfind, hsuccess, hcurrency, hamount]

lemma guestProgram_charging (o : GuestOperation) : Obeys charging (fun _ _ => True) (o.program config) g := by
  cases o with
  | initializePayment dto => exact charging_none (Prog.each_bind initializePayment_settles fun _ => trivial)
  | getPaymentStatus reference =>
    refine obeys_then (obeys_then (charging_none (settles_query nofun)) fun existing g => ?_) fun _ _ => trivial
    rcases existing with _ | status
    · trivial
    refine obeys_then ?_ fun _ g => charging_none (Prog.each_bind (settles_query nofun) fun found => ?_)
    · unfold settleIfOpen
      split
      · exact obeys_then (obeys_attempt.mpr settle_charging) fun _ _ => trivial
      · trivial
    · split <;> trivial
  | service o =>
    cases o with
    | settle reference => exact obeys_then settle_charging fun _ _ => trivial
    | processPayout payoutId => exact charging_none processPayout_settles
    | handleTransferEvent reference outcome reason => exact charging_none handleTransferEvent_settles
    | retryPayout payoutId => exact charging_none (Prog.each_bind retryPayout_settles fun _ => trivial)
    | enqueueDuePayouts => exact charging_none (Prog.each_bind enqueueDuePayouts_settles fun _ => trivial)

end Obeying

/-! ### Whole runs -/

section Runs

variable {V : Type} {config : PaymentsConfig} {p p' : Pool App GuestOperation Unit} {r : Run App GuestOperation}
  {ev : Event App GuestOperation Db} {transactionId : Uuid} {g : Charging} {payment : PaymentTransaction}
  {log : List (Did App)} {reference : String} {amountKobo : ℤ}

lemma ofCharge_tells {i : ℕ} {ds : List (Did App)} (h : ChargedByResponse p ev) (htells : Tells i ev ds) :
    ∀ d ∈ ds, OfCharge d := by
  intro d hd
  cases htells with
  | exec | send | fail => rw [List.mem_singleton.mp hd]; trivial
  | lost =>
    simp only [List.mem_cons, List.not_mem_nil, or_false] at hd
    rcases hd with rfl | rfl <;> trivial
  | answer q o =>
    rw [List.mem_singleton.mp hd]
    cases q with
    | verifyPayment reference => exact h i o rfl reference
    | _ => trivial
  | finish | crash => cases hd

lemma Confirmed.mono {log' : List (Did App)} (h : Confirmed log reference amountKobo) (hlog : log ⊆ log') :
    Confirmed log' reference amountKobo := by
  obtain ⟨fetched, answer, hmem, hverifies, hcharges⟩ := h
  exact ⟨fetched, answer, hlog hmem, hverifies, hcharges⟩

/-- A charge that the monitor noted is confirmed by the log. -/
lemma confirmed_of_charged (hof : ∀ d ∈ r.log, OfCharge d) :
    ∀ x ∈ (charging.at_ r : Charging).charged, Confirmed r.log x.1 x.2 := by
  refine Monitor.at_log (M := charging) (P := fun (g : Charging) log => (∀ d ∈ log, OfCharge d) →
    ∀ x ∈ g.charged, Confirmed log x.1 x.2) r (fun _ _ hmem => by cases hmem)
    (fun (g : Charging) log d ih hof x hx => ?_) hof
  have hold : x ∈ g.charged → Confirmed (log ++ [d]) x.1 x.2 := fun hx =>
    (ih (fun d hd => hof d (List.mem_append_left _ hd)) x hx).mono (List.subset_append_left _ _)
  have hd : OfCharge d := hof d (by simp)
  replace hx : x ∈ (g.next d).charged := hx
  unfold Charging.next at hx
  split at hx
  · exact hold hx
  · rename_i reference verification
    split at hx
    · rename_i hnoted
      rcases List.mem_cons.mp hx with rfl | hx
      · obtain ⟨fetched, hverifies⟩ := hd
        exact ⟨fetched, _, by simp, hverifies, charges_of_verified hverifies hnoted.1 hnoted.2⟩
      · exact hold hx
    · exact hold hx
  · exact hold hx

/-- What was looked up was stored. -/
lemma found_of_foldl {ds : List (Did App)} (h : payment ∈ (ds.foldl Charging.next g).found) :
    payment ∈ g.found ∨ ∃ nm w s s', .stmt nm w s s' ∈ ds ∧ payment ∈ s.payments.rows := by
  induction ds generalizing g with
  | nil => exact .inl h
  | cons d ds ih =>
    rcases ih h with h | ⟨nm, w, s, s', hd, hmem⟩
    · unfold Charging.next at h
      split at h
      · rename_i reference s w s'
        rcases List.mem_append.mp h with h | h
        · exact .inl h
        · exact .inr ⟨_, _, _, _, List.mem_cons_self, Table.mem_of_find (Option.mem_toList.mp h)⟩
      · split at h <;> exact .inl h
      · exact .inl h
    · exact .inr ⟨nm, w, s, s', List.mem_cons_of_mem _ hd, hmem⟩

/-- Payments that were looked up are still there, with the reference and the amount they had. -/
def Present (p : Pool App GuestOperation Unit) : Prop := ∀ r ∈ p.runs,
  ∀ payment ∈ (charging.at_ r : Charging).found, ∃ row ∈ p.store.payments.rows, quoted row = quoted payment

lemma present_step (h : Present p) (hkeeps : Keeps p.store p'.store)
    (hs : step (guests config) p ev = some p') : Present p' := by
  have hlater : ∀ payment, (∃ row ∈ p.store.payments.rows, quoted row = quoted payment) →
      ∃ row ∈ p'.store.payments.rows, quoted row = quoted payment := by
    rintro payment ⟨row, hrow, hquoted⟩
    obtain ⟨row', hrow', hquoted'⟩ := mem_map_of_prefix hkeeps.payments hrow
    exact ⟨row', hrow', hquoted'.trans hquoted⟩
  intro r' hr' payment hfound
  refine hlater payment ?_
  cases step_concerns hs with
  | start l hev hruns hstore =>
    rw [hruns, List.mem_append, List.mem_singleton] at hr'
    rcases hr' with hr' | rfl
    · exact h r' hr' payment hfound
    · cases hfound
  | goes i r r'' ds htells hr hruns hgoes hadds =>
    rw [hruns] at hr'
    rcases List.mem_or_eq_of_mem_set hr' with hr' | rfl
    · exact h r' hr' payment hfound
    rw [Monitor.at_continues hgoes] at hfound
    rcases found_of_foldl hfound with hfound | ⟨nm, w, s, s', hd, hmem⟩
    · exact h r (Monitor.mem_of_live hr) payment hfound
    · exact ⟨payment, (hadds.stmt_mem hd).1 ▸ hmem, rfl⟩
  | move v hev hruns => exact h r' (hruns ▸ hr') payment hfound

/-- The invariant: the books are kept, only what is chargeable is settled, what was looked up is there, answers
are made of responses; settlements are of payments that are charged, and what is owed is owed for settlements. -/
structure InFull (config : PaymentsConfig) (p : Pool App GuestOperation Unit) : Prop where
  steady : Steady Keeps Incurs (fun _ _ => True) p
  watched : charging.WatchesAll p
  dated : ∀ r ∈ p.runs, r.prog.EachIn DatedTaking
  present : Present p
  responses : ∀ r ∈ p.runs, ∀ d ∈ r.log, OfCharge d
  settled : ∀ po ∈ p.store.postings, po.origin = .settlement → ChargedFor p po.transactionId
  owed : ∀ payout ∈ p.store.payouts.rows, ∃ po ∈ p.store.postings, po.origin = .settlement ∧
    po.transactionId = payout.transactionId

lemma ChargedFor.step (h : ChargedFor p transactionId) (hkeeps : Keeps p.store p'.store) (hext : Extends p p') :
    ChargedFor p' transactionId := by
  obtain ⟨payment, hpayment, hid, r, hr, hconfirmed⟩ := h
  obtain ⟨payment', hpayment', hquoted⟩ := mem_map_of_prefix hkeeps.payments hpayment
  obtain ⟨r', hr', -, hpre⟩ := hext r hr
  simp only [quoted, PaymentTransaction.mk.injEq] at hquoted
  refine ⟨payment', hpayment', by rw [hquoted.1, hid], r', hr', ?_⟩
  rw [hquoted.2.1, show payment'.grossAmountKobo = payment.grossAmountKobo by simp [hquoted]]
  exact hconfirmed.mono hpre.subset

lemma posting_same (hpost : p'.store.postings = p.store.postings) {po : Posting}
    (hpo : p'.store.postings = p.store.postings ++ [po]) : False := by
  have hlength := congrArg List.length (hpost.symm.trans hpo)
  simp at hlength

/-- What every event does to the books. -/
lemma inFull_incurs (h : InFull config p) (hs : step (guests config) p ev = some p') :
    Steady Keeps Incurs (fun _ _ => True) p' ∧ Keeps p.store p'.store ∧ Incurs p.store p'.store := by
  have hmove : ∀ v db x db' x', (guests config).move v db x = some (db', x') → Keeps db db' ∧
      db'.ledgerAccounts = db.ledgerAccounts ∧ db'.postings = db.postings ∧ db'.payouts = db.payouts :=
    fun v db x db' x' hm => elsewhere_keeps (guests_move hm)
  have hmeets : Meets (fun _ _ => True) p ev := by cases ev <;> simp [Meets]
  obtain ⟨hsteady, hdoes⟩ := steady_step (G := Keeps) Keeps.refl (fun _ _ _ => Keeps.trans)
    (fun o db => guestProgram_incurring o) (fun v s x hm => (hmove v _ _ s x hm).1) h.steady hmeets hs
  refine ⟨hsteady, ?_⟩
  rcases hdoes with hsame | hdone | ⟨v, hm⟩
  · rw [hsame]
    exact ⟨.refl _, incurs_quiet rfl rfl⟩
  · exact hdone
  · obtain ⟨hkeeps, -, hpost, hpay⟩ := hmove v _ _ _ _ hm
    exact ⟨hkeeps, incurs_quiet hpost (by rw [hpay])⟩

/-- **A settlement that is posted** is of the payment its run found chargeable. -/
lemma inFull_posts (h : InFull config p) (hs : step (guests config) p ev = some p')
    (hkeeps : Keeps p.store p'.store) {po : Posting} (hpo : p'.store.postings = p.store.postings ++ [po])
    (horigin : po.origin = .settlement) : ChargedFor p' po.transactionId := by
  rcases step_store hs with ⟨r, site, w, hex⟩ | hstore | ⟨v, hm⟩
  · have hsite : site = .settleTransaction po.transactionId :=
      ((hex.does (h.dated r (Monitor.mem_of_live hex.choose_spec.2.1))).1 po hpo).2 horigin
    obtain ⟨i, -, hr, hexecutes⟩ := hex
    obtain ⟨payment, hid, hchargeable⟩ := h.watched.guar_of hr hexecutes trivial _ hsite
    have hrun : r ∈ p.runs := Monitor.mem_of_live hr
    obtain ⟨row, hrow, hquoted⟩ := h.present r hrun payment hchargeable.found
    have hconfirmed := confirmed_of_charged (h.responses r hrun) _ hchargeable.charged
    simp only [quoted, PaymentTransaction.mk.injEq] at hquoted
    refine ChargedFor.step ⟨row, hrow, hquoted.1.trans hid, r, hrun, ?_⟩ hkeeps (step_extends hs)
    rw [hquoted.2.1, show row.grossAmountKobo = payment.grossAmountKobo by simp [hquoted]]
    exact hconfirmed
  · exact (posting_same (by rw [hstore]) hpo).elim
  · exact (posting_same (elsewhere_keeps (guests_move hm)).2.2.1 hpo).elim

theorem inFull_step (h : InFull config p) (hok : ChargedByResponse p ev)
    (hs : step (guests config) p ev = some p') : InFull config p' := by
  obtain ⟨hsteady, hkeeps, pos, hpost, hlength, hpayouts⟩ := inFull_incurs h hs
  refine ⟨hsteady, ?_, ?_, present_step h.present hkeeps hs, ?_, fun po hpo horigin => ?_, fun payout hpayout => ?_⟩
  · refine Monitor.watchesAll_step h.watched (fun o _ _ => ?_) ?_ hs
    · exact guestProgram_charging o
    · cases ev <;> first
        | trivial
        | exact fun _ _ _ _ _ _ => trivial
  · exact inherited_step (fun _ _ _ r h => h.2 r) (fun _ _ a h => h a) h.dated (fun o _ => guest_dated o) hs
  · exact logged_step h.responses (fun _ _ htells => ofCharge_tells hok htells) hs
  · rw [hpost, List.mem_append] at hpo
    rcases hpo with hpo | hpo
    · exact (h.settled po hpo horigin).step hkeeps (step_extends hs)
    · -- the one posting of this event
      obtain ⟨po', rfl⟩ : ∃ po', pos = [po'] := by
        rcases pos with _ | ⟨po', _ | ⟨_, _⟩⟩
        · cases hpo
        · exact ⟨po', rfl⟩
        · simp at hlength
      obtain rfl := List.mem_singleton.mp hpo
      exact inFull_posts h hs hkeeps hpost horigin
  · rcases hpayouts payout hpayout with hold | ⟨po, hpo, howed⟩
    · obtain ⟨old, hmem, hobligation⟩ := List.mem_map.mp hold
      obtain ⟨po, hpo, horigin, hid⟩ := h.owed old hmem
      have htransaction : old.transactionId = payout.transactionId := congrArg Obligation.transactionId hobligation
      exact ⟨po, by rw [hpost]; exact List.mem_append_left _ hpo, horigin, hid.trans htransaction⟩
    · exact ⟨po, by rw [hpost]; exact List.mem_append_right _ hpo, howed⟩

/-- **No tip is credited before it is charged in full**, however the calls of guests, webhooks and workers
interleave, crash and are repeated: for the payment of every settlement in the ledger, and of every payout there is,
some run was told by a response of Paystack's that exactly its amount was charged under its reference. -/
theorem credited_in_full (config : PaymentsConfig) (hruns : p.runs = []) (hpost : p.store.postings = [])
    (hpay : p.store.payouts.rows = []) (hreach : Reach (guests config) ChargedByResponse p p') :
    (∀ po ∈ p'.store.postings, po.origin = .settlement → ChargedFor p' po.transactionId) ∧
      ∀ payout ∈ p'.store.payouts.rows, ChargedFor p' payout.transactionId := by
  have hnone : ∀ r, r ∉ p.runs := by simp [hruns]
  have hstart : InFull config p :=
    ⟨steady_start hruns, fun r hr => absurd hr (hnone r), fun r hr => absurd hr (hnone r),
      fun r hr => absurd hr (hnone r), fun r hr => absurd hr (hnone r), by simp [hpost], by simp [hpay]⟩
  have hend : InFull config p' :=
    hreach.keeps (P := InFull config) (fun _ _ _ h hok hs => inFull_step h hok hs) hstart
  refine ⟨hend.settled, fun payout hpayout => ?_⟩
  obtain ⟨po, hpo, horigin, hid⟩ := hend.owed payout hpayout
  exact hid ▸ hend.settled po hpo horigin

end Runs

/-! ### A tip of 100 naira -/

/-- The charge is confirmed, in the settlement's currency. -/
def confirming : Fetched :=
  .response 200 "OK" (.ok (.obj [("status", .bool true), ("data", .obj [("status", .str "success"),
    ("amount", .num "10000"), ("currency", .str "NGN")])]))

lemma confirming_verifies (reference : String) : Verifies confirming (agreeable (.verifyPayment reference)) := by
  have hamount : "10000" = toString (10000 : ℤ) := by decide +kernel
  exact ⟨⟨.success, 10000, some "NGN"⟩, rfl, rfl, fun _ => congrArg (fun text => some (Json.num text)) hamount,
    fun _ => rfl⟩

lemma along_charged {V : Type} {env : Outside App GuestOperation Unit V} {p : Pool App GuestOperation Unit}
    {evs : List (Event App GuestOperation V)} (h : ∀ i o, .answer i o ∈ evs → o = agreeable) :
    Along env ChargedByResponse p evs := by
  induction evs generalizing p with
  | nil => trivial
  | cons ev evs ih =>
    refine ⟨fun i o hev reference => ?_, fun p' _ => ih fun i o hmem => h i o (List.mem_cons_of_mem _ hmem)⟩
    rw [h i o (hev ▸ List.mem_cons_self)]
    exact ⟨confirming, confirming_verifies reference⟩

theorem credited_in_full_sample : ∃ p,
    run (guests sampleConfig) ⟨guestDb, (), []⟩ (checkedOut ++ webhookSettles) = some p ∧
    p.store.postings.length = 1 ∧ p.store.payouts.rows.length = 2 ∧
    (∀ po ∈ p.store.postings, po.origin = .settlement → ChargedFor p po.transactionId) ∧
      ∀ payout ∈ p.store.payouts.rows, ChargedFor p payout.transactionId := by
  have hrun : ((run (guests sampleConfig) ⟨guestDb, (), []⟩ (checkedOut ++ webhookSettles)).any fun p =>
      p.store.postings.length == 1 && p.store.payouts.rows.length == 2) = true := by decide +kernel
  obtain ⟨p, hp, hboth⟩ := (Option.any_eq_true _ _).mp hrun
  obtain ⟨hpostings, hpayouts⟩ := (Bool.and_eq_true _ _).mp hboth
  refine ⟨p, hp, beq_iff_eq.mp hpostings, beq_iff_eq.mp hpayouts,
    credited_in_full sampleConfig rfl rfl rfl (reach_of_run (along_charged fun i o hmem => ?_) hp)⟩
  simp only [checkedOut, webhookSettles, execs, asks, List.map_cons, List.map_nil, List.cons_append, List.nil_append,
    List.mem_cons, List.not_mem_nil, or_false, reduceCtorEq, false_or, Event.answer.injEq] at hmem
  exact hmem.2

end Splitcore.Providers
