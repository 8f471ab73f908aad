import Splitcore.Money.Checkout
import Splitcore.SplitRules.InForce

/-!
The terms a payment is quoted under, and what it is divided by.

Payments and settlements run beside the calls that govern the rules. Between the two reads of a rule,
the one that quotes it and the one that settles by it, its status may change; its terms do not.
-/

namespace Splitcore.Money

open Relational Interleaving Ledger

/-! ### Payments beside the governance of the rules -/

/-- The calls to `SplitRulesService` under way, and what they are over besides the rules. -/
structure Governance where
  sessions : List (Isolation.Session SplitRules.Rules SplitRules.Operation)
  notes : List SplitRules.SplitRuleAuditEvent
  rest : SplitRules.Parties

def Governance.pool (x : Governance) (db : Db) :
    Isolation.Pool SplitRules.Rules SplitRules.Operation :=
  ⟨⟨db.splitRules, x.notes, x.rest⟩, x.sessions⟩

/-- What happens beside the calls on payments. -/
inductive Beside where
  | governance (ev : Isolation.Event SplitRules.Rules SplitRules.Operation)
  | others (v : Db)

/-- Only calls to `SplitRulesService` write the rules. -/
def governed (config : PaymentsConfig) (hashToken : String → String) :
    Outside App GuestOperation Governance Beside where
  entry := GuestOperation.program config
  start _ _ x := some x
  move v db x := match v with
    | .governance ev => (Isolation.step (SplitRules.Operation.call hashToken) (x.pool db) ev).map fun q =>
        ({ db with splitRules := q.store.table }, ⟨q.sessions, q.store.notes, q.store.rest⟩)
    | .others v => (elsewhere { v with payments := db.payments, splitRules := db.splitRules } db).map (·, x)

/-- The rule `findActiveByVenue` returns. -/
def activeRule (venueId : Uuid) (w : Input) (db : Db) : Option SplitRule :=
  newest (SplitRules.candidates venueId w.rank db.splitRules)

/-- The run of `initializePayment` created the payment, and the rule it had found for it was this. -/
def Quotes (r : Run App GuestOperation) (payment : PaymentTransaction) (rule : SplitRule) : Prop :=
  (∃ dto, r.label = .initializePayment dto) ∧ ∃ ds w s s',
    ds ++ [.stmt .initializePaymentCreate w s s'] <+: r.log ∧
    s'.payments.rows = s.payments.rows ++ [payment] ∧ ∃ venueId w₀ s₀ s₁,
      .stmt (.initializePaymentRule venueId) w₀ s₀ s₁ ∈ ds ∧ activeRule venueId w₀ s₀ = some rule

variable {L : Type} {config : PaymentsConfig} {hashToken : String → String} {db db' s s' g : Db}
  {po : Posting} {db₀ : Db}

/-! ### What is posted for a settlement -/

/-- The posting divides its payment by the terms of the payment's rule. -/
def Divided (db : Db) (po : Posting) : Prop :=
  ∃ payment ∈ db.payments.rows, payment.id = po.transactionId ∧ ∃ rule ∈ db.splitRules.rows,
    payment.splitRuleId = some rule.id ∧ ∃ specs,
      computePaymentEntries (paymentForPosting payment) (splitForPosting rule) = .ok specs ∧
      List.Forall₂ (Writes db payment.id) specs po.entries

/-- A statement leaves the rules, and what it posts for a settlement is so divided. -/
def Divides (s s' : Db) : Prop :=
  s'.splitRules = s.splitRules ∧
    ∀ po ∈ s'.postings, po.origin = .settlement → po ∈ s.postings ∨ Divided s' po

lemma Divided.keeps (h : Divided db po) (hk : Keeps db db') : Divided db' po := by
  obtain ⟨payment, hpayment, hid, rule, hrule, hsnap, specs, hspecs, hwritten⟩ := h
  obtain ⟨payment', hpayment', hquoted⟩ := mem_map_of_prefix hk.payments hpayment
  obtain ⟨rule', hrule', hterms⟩ := mem_map_of_prefix hk.splitRules hrule
  obtain ⟨hid', hsnap', hposting⟩ := of_quoted hquoted
  have hrid : rule'.id = rule.id := congrArg Prod.fst hterms
  have hsplit : splitForPosting rule' = splitForPosting rule := congrArg Prod.snd hterms
  refine ⟨payment', hpayment', hid'.trans hid, rule', hrule', ?_, specs, ?_, ?_⟩
  · rw [hsnap', hsnap, hrid]
  · rw [hposting, hsplit]; exact hspecs
  · rw [hid']; exact hwritten.imp fun _ _ h => h.mono hk.ledgerAccounts

lemma divides_of_postings (hrules : s'.splitRules = s.splitRules) (h : s'.postings = s.postings) :
    Divides s s' :=
  ⟨hrules, fun _ hpo _ => .inl (h ▸ hpo)⟩

lemma change_divides (h : Change s s') : Divides s s' := by
  have hk := h.keeps
  cases h with
  | same => exact divides_of_postings rfl rfl
  | payments => exact divides_of_postings rfl rfl
  | created => exact divides_of_postings rfl rfl
  | payouts => exact divides_of_postings rfl rfl
  | settled c =>
    refine ⟨by rw [c.after], fun po hpo _ => ?_⟩
    rw [congrArg Db.postings c.after, List.mem_append, List.mem_singleton] at hpo
    rcases hpo with hpo | rfl
    · exact .inl hpo
    obtain ⟨payment', hpayment', hquoted⟩ := mem_map_of_prefix hk.payments c.payment_mem
    obtain ⟨rule', hrule', hterms⟩ := mem_map_of_prefix hk.splitRules c.rule_mem
    obtain ⟨hid', hsnap', hposting⟩ := of_quoted hquoted
    refine .inr ⟨payment', hpayment', hid', rule', hrule', ?_, c.specs, ?_, ?_⟩
    · rw [hsnap', c.snapshot, show rule'.id = c.rule.id from congrArg Prod.fst hterms]
    · rw [hposting, show splitForPosting rule' = splitForPosting c.rule from congrArg Prod.snd hterms]
      exact c.computed
    · rw [hid']; exact c.written
  | moved back m =>
    refine ⟨by rw [m.after], fun po hpo horigin => ?_⟩
    rw [congrArg Db.postings m.after, List.mem_append, List.mem_singleton] at hpo
    rcases hpo with hpo | rfl
    · exact .inl hpo
    · cases back <;> cases horigin

/-- The program divides payments so, whatever it meets. -/
abbrev Dividing (L : Type) {α : Type} (p : Prog App α) (g : Db) : Prop :=
  Obeys (relyGuarantee Keeps Divides (fun _ _ => True) L) (fun _ _ => True) p g

lemma dividing_of_sound {α : Type} {p : Prog App α} (h : Sound (fun _ _ => True) L p g) :
    Dividing L p g :=
  obeys_wider (fun _ _ => change_divides) h

section Programs

variable {dto : InitializePaymentDto} {w : Input} {payment : PaymentTransaction}

/-- `findActiveByVenue` reads. -/
lemma activeRule_run {venueId : Uuid} {rule : Option SplitRule}
    (h : (do
      let rank ← Tx.rank
      Tx.read fun db => newest ((db.splitRules.rows.insertionSort fun a b => rank a.id ≤ rank b.id).filter
        fun r => r.venueId == venueId && r.status == .ACTIVE && r.effectiveTo.isNone) : Tx _).run w s =
      .ok (rule, s')) : rule = activeRule venueId w s ∧ s' = s := by
  obtain ⟨n, h⟩ := Tx.run_ok.mp h
  simp only [Tx.bind_ok, Tx.rank_ok, Tx.read_ok] at h
  obtain ⟨_, _, ⟨rfl, rfl⟩, hrule, hs⟩ := h
  exact ⟨hrule.symm, (congrArg Prod.fst hs).symm⟩

lemma findSession_run {found : Option ScannedSession × Time}
    (h : (do
      let now ← Tx.now
      let session ← Tx.read (findSession dto.sessionId)
      pure (session, now) : Tx _).run w s = .ok (found, s')) : s' = s := by
  obtain ⟨n, h⟩ := Tx.run_ok.mp h
  simp only [Tx.bind_ok, Tx.now_ok, Tx.read_ok, Tx.pure_ok] at h
  obtain ⟨_, _, ⟨-, rfl⟩, _, _, ⟨-, rfl⟩, -, hs⟩ := h
  exact (congrArg Prod.fst hs).symm

lemma failPayment_dividing {id : Uuid} : Dividing L (failPayment id) g := by
  refine obeys_command (fun w s a s' _ hm => ?_)
    (fun w s e _ _ => ⟨.refl s, divides_of_postings rfl rfl⟩) fun _ _ => trivial
  rw [Tx.run_now] at hm
  obtain ⟨n, hm⟩ := Tx.run_ok.mp hm
  obtain ⟨t, ht, hs⟩ := Model.update_ok hm
  obtain rfl : s' = { s with payments := t } := congrArg Prod.fst hs
  refine ⟨⟨{ Keeps.refl s with payments := ?_ }, divides_of_postings rfl rfl⟩, trivial⟩
  have hquoted : ∀ p : PaymentTransaction,
      quoted { p with status := .FAILED, updatedAt := w.now } = quoted p := fun _ => rfl
  exact (Table.map_update hquoted ht).symm ▸ List.prefix_rfl

theorem initializePayment_dividing : Dividing L (initializePayment config dto) g := by
  refine obeys_bind.mpr (obeys_command (fun w s found s' _ hm => ?_)
    (fun w s e _ _ => ⟨.refl s, divides_of_postings rfl rfl⟩) fun _ _ => trivial)
  obtain rfl := findSession_run hm
  refine ⟨⟨.refl _, divides_of_postings rfl rfl⟩, ?_⟩
  rcases found with ⟨_ | session, now⟩
  · trivial
  simp only
  split
  · trivial
  refine obeys_bind.mpr (obeys_attempt.mpr ?_)
  have hfound : Dividing L (findActiveByVenue session.qrCode.venueId) s' :=
    dividing_of_sound findActiveByVenue_sound
  refine Obeys.mono hfound fun g splitRule _ => ?_
  rcases splitRule with e | splitRule
  · trivial
  refine obeys_bind.mpr (obeys_command (fun w s payment s' _ hm => ?_)
    (fun w s e _ _ => ⟨.refl s, divides_of_postings rfl rfl⟩) fun _ _ => trivial)
  have hchange := createPayment_change hm
  refine ⟨⟨hchange.keeps, change_divides hchange⟩, ?_⟩
  refine obeys_bind.mpr (obeys_attempt.mpr (obeys_request trivial fun init => ?_))
  rcases init with e | init
  · exact obeys_bind.mpr (Obeys.mono failPayment_dividing fun g r _ => by cases r <;> trivial)
  · trivial

theorem guestProgram_dividing (o : GuestOperation) : Dividing L (o.program config) g := by
  cases o with
  | initializePayment dto =>
    exact obeys_bind.mpr (Obeys.mono initializePayment_dividing fun g r _ => by cases r <;> trivial)
  | getPaymentStatus reference =>
    exact dividing_of_sound (sound_bind getPaymentStatus_sound fun _ _ => sound_ret)
  | service o => exact dividing_of_sound (program_sound o)

/-! ### Which rule a payment is created with -/

/-- What a run was started as, and the rules it found. -/
structure Quotation where
  label : GuestOperation
  found : List SplitRule

def Quotation.next (q : Quotation) : Did App → Quotation
  | .stmt (.initializePaymentRule venueId) w s _ =>
    { q with found := q.found ++ (activeRule venueId w s).toList }
  | _ => q

/-- A payment is created for the amount asked for, with a rule that was found. -/
def quoting : Monitor App GuestOperation where
  State := Quotation
  init o _ := ⟨o, []⟩
  next := Quotation.next
  rely _ _ _ := True
  guar q site _ s s' := site = .initializePaymentCreate → ∀ dto, q.label = .initializePayment dto →
    ∀ payment, s'.payments.rows = s.payments.rows ++ [payment] →
      payment.grossAmountKobo = dto.amountKobo ∧ ∀ rule ∈ q.found, payment.splitRuleId = some rule.id

lemma createPayment_row {qrCode : QrCode} {ruleId : Uuid} {payment : PaymentTransaction}
    (h : (createPayment config dto qrCode ruleId).run w s = .ok (payment, s')) :
    payment.splitRuleId = some ruleId ∧ payment.grossAmountKobo = dto.amountKobo ∧
      s'.payments.rows = s.payments.rows ++ [payment] := by
  obtain ⟨n, h⟩ := Tx.run_ok.mp h
  obtain ⟨t, ht, -, hrule, hgross, rfl⟩ := createPayment_ok h
  exact ⟨hrule, hgross, Table.rows_insert ht⟩

lemma not_created {γ : Prop} (h : s.payments.rows = s.payments.rows ++ [payment]) : γ := by
  have := congrArg List.length h
  simp at this

theorem initializePayment_quoting :
    Obeys quoting (fun _ _ => True) (initializePayment config dto) ⟨.initializePayment dto, []⟩ := by
  refine obeys_bind.mpr (obeys_command (fun w s found s' _ _ => ⟨(fun h => by cases h), ?_⟩)
    (fun _ _ _ _ _ h => by cases h) fun _ _ => trivial)
  rcases found with ⟨_ | session, now⟩
  · trivial
  simp only
  split
  · trivial
  -- the rule that is found is the only one
  have hfound : Obeys quoting (fun g r => ∀ rule, r = .ok rule → g = ⟨.initializePayment dto, [rule]⟩)
      (findActiveByVenue session.qrCode.venueId) ⟨.initializePayment dto, []⟩ := by
    refine obeys_bind.mpr (obeys_command (fun w s rule s' _ hm => ⟨(fun h => by cases h), ?_⟩)
      (fun _ _ _ _ _ h => by cases h) fun _ _ rule h => by cases h)
    obtain ⟨hrule, rfl⟩ := activeRule_run hm
    rcases rule with _ | rule
    · exact fun rule h => by cases h
    · rintro _ ⟨⟩
      simp [quoting, Quotation.next, ← hrule]
  refine obeys_bind.mpr (obeys_attempt.mpr (Obeys.mono hfound fun g splitRule hg => ?_))
  rcases splitRule with e | splitRule
  · trivial
  obtain rfl := hg splitRule rfl
  refine obeys_bind.mpr (obeys_command (fun w s payment s' _ hm => ⟨?_, ?_⟩)
    (fun w s e _ _ => fun _ _ _ payment h => not_created h) fun _ _ => trivial)
  · intro _ dto' hlabel payment' hrows
    cases hlabel
    obtain ⟨hsnap, hamount, hcreated⟩ := createPayment_row hm
    rw [hcreated] at hrows
    obtain rfl : payment = payment' := List.cons.inj (List.append_cancel_left hrows) |>.1
    exact ⟨hamount, fun rule hrule => by rw [hsnap, List.mem_singleton.mp hrule]⟩
  refine obeys_bind.mpr (obeys_attempt.mpr (obeys_request trivial fun init => ?_))
  rcases init with e | init
  · exact obeys_bind.mpr (obeys_command (fun _ _ _ _ _ _ => ⟨(fun h => by cases h), trivial⟩)
      (fun _ _ _ _ _ h => by cases h) fun _ _ => trivial)
  · trivial

theorem guestProgram_quoting (o : GuestOperation) :
    Obeys quoting (fun _ _ => True) (o.program config) ⟨o, []⟩ := by
  have hother : (¬ ∃ dto, o = .initializePayment dto) →
      Obeys quoting (fun _ _ => True) (o.program config) ⟨o, []⟩ := by
    intro hno
    refine Obeys.mono (obeys_of_spares (I := fun q : Quotation => q.label = o) (Prog.spares_any _)
      (fun g site w s s' hg _ _ => ⟨fun _ dto hinit => absurd ⟨dto, hg ▸ hinit⟩ hno, ?_⟩)
      (fun g _ _ hg _ => hg) (fun g _ hg _ => ⟨trivial, hg⟩) (fun g _ _ hg _ => hg) rfl) fun _ _ _ => trivial
    cases site <;> exact hg
  cases o with
  | initializePayment dto =>
    exact obeys_bind.mpr (Obeys.mono initializePayment_quoting fun g r _ => by cases r <;> trivial)
  | getPaymentStatus reference => exact hother fun ⟨_, h⟩ => by cases h
  | service o => exact hother fun ⟨_, h⟩ => by cases h

end Programs

variable {q : Quotation} {ds : List (Did App)}

lemma foldl_label (ds : List (Did App)) (q : Quotation) : (ds.foldl Quotation.next q).label = q.label := by
  induction ds generalizing q with
  | nil => rfl
  | cons d ds ih =>
    rw [List.foldl_cons, ih]
    unfold Quotation.next
    split <;> rfl

lemma foldl_found {rule : SplitRule} (h : rule ∈ q.found) : rule ∈ (ds.foldl Quotation.next q).found := by
  induction ds generalizing q with
  | nil => exact h
  | cons d ds ih =>
    rw [List.foldl_cons]
    refine ih ?_
    unfold Quotation.next
    split
    · exact List.mem_append_left _ h
    · exact h

lemma found_of_mem {venueId : Uuid} {w : Input} {rule : SplitRule}
    (h : .stmt (.initializePaymentRule venueId) w s s' ∈ ds)
    (hactive : activeRule venueId w s = some rule) : rule ∈ (ds.foldl Quotation.next q).found := by
  obtain ⟨before, after, rfl⟩ := List.append_of_mem h
  rw [List.foldl_append, List.foldl_cons]
  refine foldl_found ?_
  simp [Quotation.next, hactive]

/-- The rule that is returned is in the table. -/
lemma activeRule_mem {venueId : Uuid} {w : Input} {rule : SplitRule}
    (h : activeRule venueId w db = some rule) : rule ∈ db.splitRules.rows := by
  have hnewest : ∀ rules : List SplitRule, (∀ r ∈ rules, r ∈ db.splitRules.rows) →
      ∀ r, newest rules = some r → r ∈ db.splitRules.rows := by
    intro rules hrules
    refine List.foldlRecOn (motive := fun best => ∀ r, best = some r → r ∈ db.splitRules.rows)
      rules _ (fun r hr => by cases hr) fun best hbest rule' hrule' r hr => ?_
    split at hr
    · cases hr; exact hrules _ hrule'
    · split at hr
      · cases hr; exact hrules _ hrule'
      · exact hbest r hr
  refine hnewest _ (fun r hr => ?_) rule h
  exact (List.mem_insertionSort _).mp (List.mem_of_mem_filter hr)

/-! ### Whole runs -/

section Runs

variable {x x' : Governance} {p p' : Pool App GuestOperation Governance}
  {ev : Event App GuestOperation Beside}

/-- A call to `SplitRulesService` rewrites no rule's terms. -/
lemma terms_turn {q q' : Isolation.Pool SplitRules.Rules SplitRules.Operation}
    {e : Isolation.Event SplitRules.Rules SplitRules.Operation}
    (h : Isolation.Turns (SplitRules.lifecycle hashToken) q e q') :
    q.store.table.rows.map terms <+: q'.store.table.rows.map terms := by
  cases h with
  | same hstore hold => rw [hstore]
  | others r hstore hsessions => rw [hstore]
  | commits i w c c' hev hc hret hsees hdoes hsessions hlabel hwork hphase =>
    have hdoes : SplitRules.Does hashToken c.label c.work := hdoes
    refine hsees.unchanged fun w hw r hb => ?_
    have hevolves := (hdoes.changed w hw r hb).evolves
    have hterms := hevolves.terms
    simp only [SplitRules.terms, Prod.mk.injEq] at hterms
    simp [terms, splitForPosting, hevolves.id, hterms]

/-- What happens beside the calls on payments keeps what they rely on. -/
lemma governed_move {v : Beside}
    (h : Isolation.Steady (SplitRules.lifecycle hashToken) (x.pool db))
    (hm : (governed config hashToken).move v db x = some (db', x')) :
    Isolation.Steady (SplitRules.lifecycle hashToken) (x'.pool db') ∧ Keeps db db' ∧
      db'.postings = db.postings := by
  cases v with
  | governance e =>
    obtain ⟨q, hq, heq⟩ := Option.map_eq_some_iff.mp hm
    obtain ⟨rfl, rfl⟩ := Prod.mk.inj heq
    obtain ⟨hsteady, hturns⟩ :=
      Isolation.steady_step (fun op s _ => SplitRules.call_keeps op s) h hq
    exact ⟨hsteady, { Keeps.refl db with splitRules := terms_turn hturns }, rfl⟩
  | others v =>
    obtain ⟨db₁, he, heq⟩ := Option.map_eq_some_iff.mp hm
    obtain ⟨rfl, rfl⟩ := Prod.mk.inj heq
    obtain ⟨hk, -, hpost, -⟩ := elsewhere_keeps he
    have hrules : db₁.splitRules = db.splitRules := by
      unfold elsewhere at he
      split at he <;> cases he
      rfl
    refine ⟨?_, hk, hpost⟩
    rw [Governance.pool, hrules]
    exact h

/-- Nothing but a move changes what is beside. -/
lemma governed_out (hs : step (governed config hashToken) p ev = some p')
    (hno : ∀ v, ev ≠ .move v) : p'.out = p.out := by
  cases ev with
  | start l => obtain ⟨y, hy, rfl⟩ := step_start hs; exact (Option.some.inj hy).symm
  | exec i w => obtain ⟨r, nm, eff, k, -, -, rfl⟩ := step_exec hs; rfl
  | lost i w e => obtain ⟨r, nm, eff, k, -, -, rfl⟩ := step_lost hs; rfl
  | fail i e => obtain ⟨r, nm, eff, k, -, -, rfl⟩ := step_fail hs; rfl
  | send i => obtain ⟨r, q, k, -, -, -, rfl⟩ := step_send hs; rfl
  | answer i o => obtain ⟨r, q, k, -, -, -, -, rfl⟩ := step_answer hs; rfl
  | finish i => obtain ⟨r, res, -, -, rfl⟩ := step_finish hs; rfl
  | crash i => obtain ⟨r, -, rfl⟩ := step_crash hs; rfl
  | move v => exact absurd rfl (hno v)

/-- What is known in every run from `db₀` on: the runs keep to their monitors, what they did lies
between then and now, the rules are governed, and what was posted is divided. -/
structure Governed (hashToken : String → String) (db₀ : Db) (p : Pool App GuestOperation Governance) :
    Prop where
  steady : Steady Keeps Divides (fun _ _ => True) p
  since : Keeps db₀ p.store
  between : Between Keeps db₀ p
  watched : quoting.WatchesAll p
  kept : ∀ r ∈ p.runs, quoting.Kept r
  rules : Isolation.Steady (SplitRules.lifecycle hashToken) (p.out.pool p.store)
  divided : ∀ po ∈ p.store.postings, po.origin = .settlement → po ∈ db₀.postings ∨ Divided p.store po

theorem governed_step (h : Governed hashToken db₀ p)
    (hs : step (governed config hashToken) p ev = some p') : Governed hashToken db₀ p' := by
  have hmeets : Meets (fun _ _ => True) p ev := by cases ev <;> simp [Meets]
  have hrely : quoting.Relies p ev := by cases ev <;> simp [Monitor.Relies, quoting]
  obtain ⟨hsteady, hdoes⟩ := steady_step (G := Keeps) Keeps.refl
    (fun _ _ _ => Keeps.trans) (fun o _ => guestProgram_dividing o)
    (fun v s x hm => (governed_move h.rules hm).2.1) h.steady hmeets hs
  have hdoes' : Keeps p.store p'.store ∧
      (p'.store.splitRules = p.store.splitRules ∨
        Isolation.Steady (SplitRules.lifecycle hashToken) (p'.out.pool p'.store)) ∧
      ∀ po ∈ p'.store.postings, po.origin = .settlement → po ∈ p.store.postings ∨ Divided p'.store po := by
    rcases hdoes with hstore | ⟨hk, hd⟩ | ⟨v, hm⟩
    · rw [hstore]
      exact ⟨.refl _, .inl rfl, fun po hpo _ => .inl hpo⟩
    · exact ⟨hk, .inl hd.1, hd.2⟩
    · obtain ⟨hrules, hk, hpost⟩ := governed_move h.rules hm
      exact ⟨hk, .inr hrules, fun po hpo _ => .inl (hpost ▸ hpo)⟩
  obtain ⟨hk, hrules, hposted⟩ := hdoes'
  refine ⟨hsteady, h.since.trans hk,
    between_step (G := Keeps) Keeps.refl (fun _ _ _ => Keeps.trans) h.since hk h.between hs,
    Monitor.watchesAll_step h.watched (fun o _ _ => by exact guestProgram_quoting o) hrely hs,
    Monitor.kept_step h.watched hrely h.kept hs, ?_, fun po hpo horigin => ?_⟩
  · by_cases hmove : ∃ v, ev = .move v
    · obtain ⟨v, rfl⟩ := hmove
      obtain ⟨s, y, hm, rfl⟩ := step_move hs
      exact (governed_move h.rules hm).1
    · rcases hrules with hrules | hrules
      · rw [governed_out hs fun v hv => hmove ⟨v, hv⟩, Governance.pool, hrules]
        exact h.rules
      · exact hrules
  · rcases hposted po hpo horigin with hold | hdivided
    · rcases h.divided po hold horigin with hbefore | hdivided
      · exact .inl hbefore
      · exact .inr (hdivided.keeps hk)
    · exact .inr hdivided

lemma governed_start (hruns : p.runs = []) (hrules : SplitRules.Migrated (p.out.pool p.store)) :
    Governed hashToken p.store p :=
  ⟨steady_start hruns, .refl _, fun r hr => by simp [hruns] at hr, fun r hr => by simp [hruns] at hr,
    fun r hr => by simp [hruns] at hr, hrules.steady, fun po hpo _ => .inl hpo⟩

/-- **A payment is divided by the terms it was quoted under**, whatever the calls that govern rules did
in between. -/
theorem divided_as_quoted (config : PaymentsConfig) (hashToken : String → String)
    {p₀ : Pool App GuestOperation Governance} (hruns : p₀.runs = [])
    (hrules : SplitRules.Migrated (p₀.out.pool p₀.store)) (href : References p₀.store)
    (hreach : Reach (governed config hashToken) anyEvent p₀ p) {r : Run App GuestOperation}
    (hr : r ∈ p.runs) {payment : PaymentTransaction} {rule : SplitRule} (hquotes : Quotes r payment rule)
    (hpo : po ∈ p.store.postings) (hsettled : po.origin = .settlement)
    (hid : po.transactionId = payment.id) : ∃ specs,
      computePaymentEntries (paymentForPosting payment) (splitForPosting rule) = .ok specs ∧
      List.Forall₂ (Writes p.store payment.id) specs po.entries := by
  have hgoverned : Governed hashToken p₀.store p := hreach.keeps
    (fun p ev p' h _ hs => governed_step h hs) (governed_start hruns hrules)
  obtain ⟨⟨dto, hlabel⟩, ds, w, s, s', hlog, hcreated, venueId, w₀, s₀, s₁, hfound, hactive⟩ := hquotes
  obtain ⟨hsince, -, hbefore⟩ := hgoverned.between r hr _ w s s'
    (hlog.subset (List.mem_append_right _ (List.mem_singleton_self _)))
  have hmem : payment ∈ s'.payments.rows := by rw [hcreated]; simp
  -- the payment was created with the rule
  have hsnap : payment.splitRuleId = some rule.id :=
    (hgoverned.kept r hr ds _ w s s' hlog rfl dto ((foldl_label ds _).trans hlabel) payment hcreated).2 rule
      (found_of_mem hfound hactive)
  obtain ⟨current, hcurrent, hquoted⟩ := mem_map_of_prefix hbefore.payments hmem
  obtain ⟨hcid, hcsnap, hcposting⟩ := of_quoted hquoted
  rcases hgoverned.divided po hpo hsettled with hold | ⟨q, hq, hqid, rule', hrule', hsnap', specs,
    hspecs, hwritten⟩
  · -- it is new, and what was posted before the run is about payments of before
    obtain ⟨q, hq, hqid⟩ := href.postings po hold
    obtain ⟨q', hq', hquoted'⟩ := mem_map_of_prefix hsince.payments hq
    have hid' : q'.id = payment.id := (of_quoted hquoted').1.trans (hqid.trans hid)
    have hq'' : q' ∈ s'.payments.rows := by rw [hcreated]; exact List.mem_append_left _ hq'
    obtain rfl : q' = payment := Table.eq_of_key (k := .id payment.id) hq'' hmem
      (by simp [Indexed.keys, hid']) (by simp [Indexed.keys])
    have hnodup := s'.payments.nodup_rows
    rw [hcreated, List.nodup_append] at hnodup
    exact absurd rfl (hnodup.2.2 _ hq' _ (List.mem_singleton_self _))
  · obtain rfl : q = current := Table.eq_of_key (k := .id payment.id) hq hcurrent
      (by simp [Indexed.keys, hqid, hid]) (by simp [Indexed.keys, hcid])
    -- the rule is still there under its id, with its terms
    have hruleMem : rule ∈ s₀.splitRules.rows := activeRule_mem hactive
    have hstmt : .stmt (.initializePaymentRule venueId) w₀ s₀ s₁ ∈ r.log :=
      hlog.subset (List.mem_append_left _ hfound)
    obtain ⟨-, hread, hafter⟩ := hgoverned.between r hr _ w₀ s₀ s₁ hstmt
    obtain ⟨rule₁, hrule₁, hterms⟩ := mem_map_of_prefix (hread.trans hafter).splitRules hruleMem
    have hsame : rule'.id = rule₁.id := by
      have hrid : rule₁.id = rule.id := congrArg Prod.fst hterms
      rw [hcsnap, hsnap, Option.some.injEq] at hsnap'
      rw [hrid, hsnap']
    obtain rfl : rule' = rule₁ := Table.eq_of_key (k := .id rule'.id) hrule' hrule₁
      (by simp [Indexed.keys]) (by simp [Indexed.keys, hsame])
    have hsplit : splitForPosting rule' = splitForPosting rule := congrArg Prod.snd hterms
    rw [hcposting, hsplit] at hspecs
    exact ⟨specs, hspecs, hcid ▸ hwritten⟩

end Runs

/-! ### A rule is replaced between the quote and the settlement -/

/-- The payment and the rule of a run that found a rule and then created a payment. -/
def firstQuote (r : Run App GuestOperation) : Option (PaymentTransaction × SplitRule) :=
  match r.label, r.log with
  | .initializePayment _, _ :: .stmt (.initializePaymentRule venueId) w₀ s₀ _ ::
      .stmt .initializePaymentCreate _ s s' :: _ => do
    let payment ← s'.payments.rows.getLast?
    let rule ← activeRule venueId w₀ s₀
    if s'.payments.rows = s.payments.rows ++ [payment] then some (payment, rule) else none
  | _, _ => none

lemma quotes_of_firstQuote {r : Run App GuestOperation} {payment : PaymentTransaction} {rule : SplitRule}
    (h : firstQuote r = some (payment, rule)) : Quotes r payment rule := by
  unfold firstQuote at h
  split at h
  · rename_i dto first venueId w₀ s₀ s₁ w s s' rest hlabel hlog
    simp only [Option.bind_eq_bind, Option.bind_eq_some_iff] at h
    obtain ⟨payment', -, rule', hactive, h⟩ := h
    split at h
    · rename_i hcreated
      cases h
      refine ⟨⟨dto, hlabel⟩, [first, .stmt (.initializePaymentRule venueId) w₀ s₀ s₁], w, s, s', ?_,
        hcreated, venueId, w₀, s₀, s₁, by simp, hactive⟩
      rw [hlog]
      exact ⟨rest, rfl⟩
    · cases h
  · cases h

def quotedThenReplaced : List (Event App GuestOperation Beside) :=
  .start (.initializePayment sampleDto) :: execs 0 [1, 2, 3] ++ [.send 0] ++
    (.start (SplitRules.overrideTo 7000 2500) :: SplitRules.execs 0 [4, 5, 6, 7, 8, 9, 10]).map
      (fun e => .move (.governance e)) ++
    .start (.service (.settle "pay_nanoid")) :: execs 1 [11] ++ asks 1 agreeable ++ execs 1 [12, 13]

def beforeQuotes : Pool App GuestOperation Governance :=
  ⟨guestDb, ⟨[], [], ⟨none, .empty, .empty⟩⟩, []⟩

/-- The settlement posted for the payment, and the payment's rule superseded by then. -/
def settledBySuperseded (p : Pool App GuestOperation Governance) : Bool := p.runs.any fun r =>
  (firstQuote r).any fun quote =>
    (p.store.splitRules.rows.any fun current => current.id == quote.2.id && current.status == .SUPERSEDED) &&
      p.store.postings.any fun po => po.origin == .settlement && po.transactionId == quote.1.id

theorem divided_as_quoted_sample : ∃ p,
    run (governed sampleConfig (fun token => token)) beforeQuotes quotedThenReplaced = some p ∧
    ∃ r ∈ p.runs, ∃ payment rule, Quotes r payment rule ∧
      (∃ current ∈ p.store.splitRules.rows, current.id = rule.id ∧ current.status = .SUPERSEDED) ∧
      ∃ po ∈ p.store.postings, po.origin = .settlement ∧ po.transactionId = payment.id ∧ ∃ specs,
        computePaymentEntries (paymentForPosting payment) (splitForPosting rule) = .ok specs ∧
        List.Forall₂ (Writes p.store payment.id) specs po.entries := by
  obtain ⟨p, hp, hsettled⟩ := (Option.any_eq_true _ _).mp
    (by decide +kernel : ((run (governed sampleConfig (fun token => token)) beforeQuotes
      quotedThenReplaced).any settledBySuperseded) = true)
  simp only [settledBySuperseded, List.any_eq_true, Option.any_eq_true, Bool.and_eq_true,
    beq_iff_eq] at hsettled
  obtain ⟨r, hr, ⟨payment, rule⟩, hquote, hsuperseded, po, hpo, horigin, hid⟩ := hsettled
  have hquotes := quotes_of_firstQuote hquote
  have href : References guestDb := ⟨by simp [guestDb], by simp [guestDb, Table.empty]⟩
  have hrules : SplitRules.Migrated (beforeQuotes.out.pool beforeQuotes.store) :=
    ⟨rfl, fun r hr => by rw [List.mem_singleton.mp hr]; decide⟩
  exact ⟨p, hp, r, hr, payment, rule, hquotes, hsuperseded, po, hpo, horigin, hid,
    divided_as_quoted sampleConfig _ rfl hrules href (reach_of_run (along_any _) hp) hr hquotes hpo
      horigin hid⟩

end Splitcore.Money
