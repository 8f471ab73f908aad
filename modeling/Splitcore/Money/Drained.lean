import Splitcore.Interleaving.Sequential
import Splitcore.Money.Attempted
import Splitcore.Money.Crowding
import Splitcore.Money.Paid

/-!
Nothing owed is stranded. Wherever the services got, with runs under way or gone in the middle of what they
did, a worker whose provider pays makes every payout it has a job for, and the balances fall by just these.
-/

namespace Splitcore.Money

open Relational Interleaving Ledger

variable {db db' : Db} {row : Payout} {account : LedgerAccount} {ds : List (Interleaving.Done App Operation Unit)}

/-! ### What every settlement leaves for the payouts -/

/-- Payouts can be posted: the clearing account is there, and their amounts are such as the ledger takes. -/
structure Endowed (db : Db) : Prop where
  clearing : db.payouts.rows ≠ [] → ∃ id, ⟨id, .PROCESSOR_CLEARING, none⟩ ∈ db.ledgerAccounts.rows
  postable : ∀ p ∈ db.payouts.rows, Postable p.amountKobo

lemma endowed_empty (h : db.payouts.rows = []) : Endowed db := ⟨fun hne => absurd h hne, by simp [h]⟩

/-- An update leaves the amounts. -/
lemma amounts_of_update {t t' : Table Payout} {guard : Payout → Bool} {update : Payout → Payout}
    (hkeeps : ∀ p, obligation (update p) = obligation p) (h : t.update guard update = some t') {p : Payout}
    (hp : p ∈ t'.rows) : ∃ q ∈ t.rows, q.amountKobo = p.amountKobo := by
  have hmem := List.mem_map_of_mem (f := obligation) hp
  rw [Table.map_update hkeeps h, List.mem_map] at hmem
  obtain ⟨q, hq, hob⟩ := hmem
  exact ⟨q, hq, congrArg Obligation.amountKobo hob⟩

lemma Endowed.updated {t' : Table Payout} {guard : Payout → Bool} {update : Payout → Payout} (he : Endowed db)
    (hkeeps : ∀ p, obligation (update p) = obligation p) (ht : db.payouts.update guard update = some t')
    (hpayouts : db'.payouts = t') (hacc : db.ledgerAccounts.rows <+: db'.ledgerAccounts.rows) : Endowed db' := by
  subst hpayouts
  refine ⟨fun hne => ?_, fun p hp => ?_⟩
  · obtain ⟨p, hp⟩ := List.exists_mem_of_ne_nil _ hne
    obtain ⟨q, hq, -⟩ := amounts_of_update hkeeps ht hp
    obtain ⟨id, hid⟩ := he.clearing (List.ne_nil_of_mem hq)
    exact ⟨id, hacc.subset hid⟩
  · obtain ⟨q, hq, hamount⟩ := amounts_of_update hkeeps ht hp
    rw [← hamount]
    exact he.postable q hq

lemma change_endowed (h : Change db db') (he : Endowed db) : Endowed db' := by
  cases h with
  | same => exact he
  | payments => exact ⟨he.clearing, he.postable⟩
  | created => exact ⟨he.clearing, he.postable⟩
  | payouts guard update t ht hkeeps => exact he.updated hkeeps ht rfl List.prefix_rfl
  | settled s =>
    obtain ⟨hbalanced, hspecs⟩ := computePaymentEntries_ok s.computed
    have hpayouts : db'.payouts = s.payouts' := congrArg Db.payouts s.after
    constructor
    · -- a settlement debits the clearing account
      intro _
      have hdebit : ⟨.PROCESSOR_CLEARING, none, .DEBIT, s.payment.grossAmountKobo⟩ ∈ s.specs := by
        rw [hspecs]
        exact List.mem_cons_self
      obtain ⟨e, -, hw⟩ := exists_of_forall₂ (List.Forall₂.flip (R := flip _) s.written) hdebit
      exact ⟨_, hw.2.2.2⟩
    · intro p hp
      rw [hpayouts, s.payouts_rows, List.mem_append] at hp
      rcases hp with hp | hp
      · exact he.postable p hp
      · obtain ⟨spec, hspec, ho⟩ := exists_of_forall₂ s.owed (List.mem_map_of_mem hp)
        have hamount : p.amountKobo = spec.amountKobo := ho.2.1
        rw [hamount]
        exact (assertBalanced_ok.mp hbalanced).2.1 spec (List.mem_of_mem_filter hspec)
  | moved back m =>
    have hpayouts : db'.payouts = m.payouts' := congrArg Db.payouts m.after
    exact he.updated m.keeps m.updated hpayouts (Change.moved back m).keeps.ledgerAccounts

lemma elsewhere_endowed {v : Db} (h : elsewhere v db = some db') (he : Endowed db) : Endowed db' := by
  obtain ⟨-, hacc, -, hpay⟩ := elsewhere_keeps h
  exact ⟨by rw [hacc, hpay]; exact he.clearing, by rw [hpay]; exact he.postable⟩

lemma Arises.endowed (h : Arises db) : Endowed db := by
  obtain ⟨p₀, p, hruns, -, hpay, h, rfl⟩ := h
  exact (services_keep (fun _ _ => change_endowed) (fun _ _ _ => elsewhere_endowed) (steady_start hruns) h
    (endowed_empty hpay)).2

lemma Arises.refsAgree (h : Arises db) : RefsAgree db := by
  obtain ⟨p₀, p, hruns, -, hpay, h, rfl⟩ := h
  have hrefs : RefsAgree p₀.store := fun q hq => by simp [hpay] at hq
  exact (h.keeps (P := Tracked) (fun _ _ _ ht _ hs => (services_tracked ht hs).1) (tracked_start hruns hrefs)).refs

/-! ### Programs one after another -/

instance : Nonempty Err := ⟨.typeError⟩

lemma services_permits : Permits services := ⟨fun _ _ x => ⟨x, rfl⟩, fun _ _ _ => rfl⟩

/-- What is run from where the services got is where they can get. -/
lemma Arises.history {fault : Err → Prop} (hdb : Arises db) (h : History (σ := App) fault Operation.program db ds db') :
    Arises db' ∧ Keeps db db' := by
  obtain ⟨p₀, p, hruns, hpost, hpay, hreach, rfl⟩ := hdb
  obtain ⟨p', hp', hstore⟩ := reach_history services_permits h rfl
  have horder := (services_keep (J := fun _ => True) (fun _ _ _ _ => trivial) (fun _ _ _ _ _ => trivial)
    (steady_start hruns) hreach trivial).1
  have hkeeps := (services_keep (J := Keeps p.store) (fun _ _ hc hk => hk.trans hc.keeps)
    (fun _ _ _ he hk => hk.trans (elsewhere_keeps he).1) horder hp' (Keeps.refl _)).2
  rw [hstore] at hkeeps
  exact ⟨⟨p₀, p', hruns, hpost, hpay, hreach.trans hp', hstore⟩, hkeeps⟩

/-! ### Jobs -/

/-- A payout that can be made: it is open, and its owner can be paid. -/
def Due (db : Db) (row : Payout) : Prop := OPEN_STATUSES.contains row.status = true ∧
  ∃ account ∈ db.ledgerAccounts.rows, account.id = row.ledgerAccountId ∧ Sendable db account

/-- What became of a payout when there were jobs for some. -/
structure Worked (db : Db) (jobs : List Uuid) (p q : Payout) : Prop where
  owed : obligation q = obligation p
  made : Due db p → p.id ∈ jobs → q.status = .SUCCESS
  others : (p.id ∈ jobs → p.status = .SUCCESS) → q = p

lemma forall₂_imp_of_mem {γ δ : Type} {R S : γ → δ → Prop} {l : List γ} {l' : List δ} (h : List.Forall₂ R l l')
    (himp : ∀ a ∈ l, ∀ b ∈ l', R a b → S a b) : List.Forall₂ S l l' := by
  induction h with
  | nil => exact .nil
  | cons hab _ ih =>
    exact .cons (himp _ (by simp) _ (by simp) hab)
      (ih fun a ha b hb => himp a (List.mem_cons_of_mem _ ha) b (List.mem_cons_of_mem _ hb))

/-- A job for what is made already does nothing. -/
lemma processPayout_idles {id : Uuid} (h : Succeeded id db) :
    Yields Pays (fun _ s' => s' = db) (processPayout id) db := by
  obtain ⟨q, hq, rfl, hstatus⟩ := h
  have hfind : db.payouts.find (·.id == q.id) = some q := (Table.find_eq_some names_payout).mpr ⟨hq, by simp⟩
  refine yields_bind (yields_query ?_)
  rcases hfound : payoutWithAccount (·.id == q.id) db with _ | ⟨payout, account⟩
  · exact rfl
  · obtain rfl : q = payout := Option.some.inj (hfind.symm.trans (payoutWithAccount_find hfound))
    simp only [hstatus]
    exact rfl

/-- The payout of a job is made, if it can be and was not touched before. -/
lemma succeeded_of_job {id : Uuid} {log : List (Did App)} {res : Except Err Unit} {p q : Payout} {jobs : List Uuid}
    (harises : Arises db') (hkeeps : Keeps db db') (hent : db'.entertainers = db.entertainers)
    (hven : db'.venues = db.venues) (hworked : Worked db jobs p q) (hq : q ∈ db'.payouts.rows) (hdue : Due db p)
    (hid : p.id = id) {db'' : Db} (h : Ends Faultless (processPayout id) db' log res db'') (hlog : Heeds Pays log) :
    Succeeded id db'' := by
  by_cases hjob : p.id ∈ jobs
  · have hdone : Succeeded id db' :=
      ⟨q, hq, (congrArg Obligation.id hworked.owed).trans hid, hworked.made hdue hjob⟩
    rw [(processPayout_idles hdone).ends h hlog]
    exact hdone
  · obtain rfl := hworked.others fun hin => absurd hin hjob
    obtain ⟨hopen, account, hmem, haccount, hsend⟩ := hdue
    have howing : Owing db' q account :=
      { mem := hq, account_mem := hkeeps.ledgerAccounts.subset hmem, account_id := haccount
        payable := hsend.payable.1, owner := hsend.payable.2, postable := harises.endowed.postable q hq
        clearing := harises.endowed.clearing (List.ne_nil_of_mem hq)
        unpaid := fun hs => by rw [hs] at hopen; exact absurd hopen (by decide) }
    subst hid
    exact ((processPayout_succeeds howing harises.refsAgree hopen (hsend.congr hent hven)).ends h hlog).2

/-- One job more. -/
lemma worked_job {id : Uuid} {log : List (Did App)} {res : Except Err Unit} {jobs : List Uuid} {db'' : Db}
    (harises : Arises db') (hkeeps : Keeps db db') (hent : db'.entertainers = db.entertainers)
    (hven : db'.venues = db.venues) (hrows : List.Forall₂ (Worked db jobs) db.payouts.rows db'.payouts.rows)
    (h : Ends Faultless (processPayout id) db' log res db'') (hlog : Heeds Pays log) :
    List.Forall₂ (Worked db (jobs ++ [id])) db.payouts.rows db''.payouts.rows := by
  have htouch := (processPayout_confined id db').ends h hlog
  have hmem := forall₂_imp_of_mem htouch.rows
    (S := fun q r => Only id q r ∧ q ∈ db'.payouts.rows ∧ r ∈ db''.payouts.rows) fun q hq r hr hqr => ⟨hqr, hq, hr⟩
  refine forall₂_trans (fun p q r hpq hqr => ?_) hrows hmem
  obtain ⟨⟨howed, hother⟩, hq, hr⟩ := hqr
  have hqid : q.id = p.id := congrArg Obligation.id hpq.owed
  have hrid : r.id = p.id := (congrArg Obligation.id howed).trans hqid
  refine ⟨howed.trans hpq.owed, fun hdue hjob => ?_, fun hjob => ?_⟩
  · by_cases heq : p.id = id
    · obtain ⟨x, hx, hxid, hstatus⟩ := succeeded_of_job harises hkeeps hent hven hpq hq hdue heq h hlog
      rw [Table.eq_of_key (k := .id id) hr hx (by simp [Indexed.keys, hrid, heq]) (by simp [Indexed.keys, hxid])]
      exact hstatus
    · rw [hother (by rwa [hqid])]
      exact hpq.made hdue (by simpa [heq] using hjob)
  · obtain rfl := hpq.others fun hin => hjob (List.mem_append_left _ hin)
    by_cases heq : q.id = id
    · -- it had been made before
      have hdone : Succeeded id db' := ⟨q, hq, heq, hjob (by simp [heq])⟩
      rw [(processPayout_idles hdone).ends h hlog] at hr
      exact Table.eq_of_key (k := .id id) hr hq (by simp [Indexed.keys, hrid, heq]) (by simp [Indexed.keys, heq])
    · exact hother heq

/-- **Jobs one after another**, whose provider pays, make what can be made and touch no other payout. -/
theorem jobs_worked {jobs : List Uuid} (hdb : Arises db) (h : History Faultless Operation.program db ds db')
    (hjobs : ds.map (·.label) = jobs.map .processPayout) (hlogs : ∀ d ∈ ds, Heeds Pays d.log) :
    db'.entertainers = db.entertainers ∧ db'.venues = db.venues ∧
      List.Forall₂ (Worked db jobs) db.payouts.rows db'.payouts.rows := by
  induction h generalizing jobs with
  | nil =>
    obtain rfl : jobs = [] := by simpa using hjobs.symm
    exact ⟨rfl, rfl, List.forall₂_same.mpr fun p _ => ⟨rfl, fun _ hj => absurd hj (by simp), fun _ => rfl⟩⟩
  | @snoc ds d h hd ih =>
    rw [List.map_append, eq_comm, List.map_eq_append_iff] at hjobs
    obtain ⟨jobs, last, rfl, hbefore, hlast⟩ := hjobs
    obtain ⟨id, hrest, hid⟩ : ∃ id, last = [id] ∧ d.label = .processPayout id := by
      rcases last with _ | ⟨id, _ | ⟨id', last⟩⟩ <;> simp at hlast
      exact ⟨id, rfl, hlast.symm⟩
    obtain ⟨hent, hven, hrows⟩ := ih hbefore.symm fun x hx => hlogs x (by simp [hx])
    obtain ⟨harises, hkeeps⟩ := hdb.history h
    have hlog := hlogs d (by simp)
    rw [hid] at hd
    have htouch := (processPayout_confined id d.before).ends hd hlog
    rw [hrest]
    exact ⟨htouch.entertainers.trans hent, htouch.venues.trans hven,
      worked_job harises hkeeps hent hven hrows hd hlog⟩

/-! ### Balances -/

/-- What is owed on an account for payouts that have no job. -/
def restOn (db : Db) (jobs : List Uuid) (accountId : Uuid) : ℤ :=
  ((db.payouts.rows.filter fun p => p.ledgerAccountId = accountId ∧ p.status ≠ .SUCCESS ∧ p.id ∉ jobs).map
    (·.amountKobo)).sum

/-- On an account all whose jobs can be done, what is left is owed for what had no job. -/
lemma owedOn_worked {jobs : List Uuid} {accountId : Uuid}
    (h : List.Forall₂ (Worked db jobs) db.payouts.rows db'.payouts.rows)
    (hdue : ∀ p ∈ db.payouts.rows, p.ledgerAccountId = accountId → p.id ∈ jobs → p.status = .SUCCESS ∨ Due db p) :
    owedOn db' accountId = restOn db jobs accountId := by
  rw [owedOn, restOn]
  generalize db.payouts.rows = ps at h hdue
  generalize db'.payouts.rows = qs at h
  induction h with
  | nil => rfl
  | @cons p q ps qs hpq _ ih =>
    have haccount : q.ledgerAccountId = p.ledgerAccountId := congrArg Obligation.ledgerAccountId hpq.owed
    have hamount : q.amountKobo = p.amountKobo := congrArg Obligation.amountKobo hpq.owed
    have hrest := ih fun p hp => hdue p (List.mem_cons_of_mem _ hp)
    by_cases hacc : p.ledgerAccountId = accountId
    · by_cases hleft : p.status ≠ .SUCCESS ∧ p.id ∉ jobs
      · obtain rfl := hpq.others fun hin => absurd hin hleft.2
        rw [List.filter_cons_of_pos (by simpa [hacc] using hleft.1),
          List.filter_cons_of_pos (by simpa [hacc] using hleft), List.map_cons, List.map_cons, List.sum_cons,
          List.sum_cons, hrest]
      · have hmade : q.status = .SUCCESS := by
          by_cases hs : p.status = .SUCCESS
          · rw [hpq.others fun _ => hs]
            exact hs
          · have hin : p.id ∈ jobs := not_not.mp fun hnot => hleft ⟨hs, hnot⟩
            exact hpq.made ((hdue p (by simp) hacc hin).resolve_left hs) hin
        rw [List.filter_cons_of_neg (by simp [hmade]), List.filter_cons_of_neg (by simpa [hacc] using hleft), hrest]
    · rw [List.filter_cons_of_neg (by simp [haccount, hacc]), List.filter_cons_of_neg (by simp [hacc]), hrest]

/-- **Nothing owed is stranded.** From any state the services reached, jobs whose provider pays make each payout
that is due, leave those without a job as they are, and leave on each account whose payouts with a job are made or
due exactly what is owed for the others. -/
theorem payouts_drained {jobs : List Uuid} (hdb : Arises db) (h : History Faultless Operation.program db ds db')
    (hjobs : ds.map (·.label) = jobs.map .processPayout) (hlogs : ∀ d ∈ ds, Heeds Pays d.log) :
    List.Forall₂ (Worked db jobs) db.payouts.rows db'.payouts.rows ∧
    ∀ account ∈ db.ledgerAccounts.rows, isPayable account.type = true →
      (∀ p ∈ db.payouts.rows, p.ledgerAccountId = account.id → p.id ∈ jobs → p.status = .SUCCESS ∨ Due db p) →
      balanceOf account.type (entriesOf db' account.id) = restOn db jobs account.id := by
  obtain ⟨-, -, hrows⟩ := jobs_worked hdb h hjobs hlogs
  obtain ⟨harises, hkeeps⟩ := hdb.history h
  refine ⟨hrows, fun account hmem hpayable hdue => ?_⟩
  rw [harises.sane.balanceOf_eq (hkeeps.ledgerAccounts.subset hmem) hpayable, owedOn_worked hrows hdue]

lemma agreeable_pays (q : Ask) : Pays q (agreeable q) := by
  cases q with
  | verifyTransfer reference => exact ⟨.success, rfl, by simp, by simp⟩
  | createRecipient params => exact ⟨_, rfl⟩
  | initiateTransfer params => exact ⟨_, rfl, rfl⟩
  | _ => trivial

/-- A tip is settled, and the worker is gone when it has claimed the payout. -/
def claimedAndGone : List (Event App Operation Db) :=
  .start (.settle "pay_1") :: execs 0 [1] ++ asks 0 agreeable ++ execs 0 [2, 3] ++
    asks 0 agreeable ++ asks 0 agreeable ++ execs 0 [4] ++ .finish 0 ::
    .start (.processPayout (uid 3005)) :: execs 1 [5, 6, 7] ++ [.crash 1]

theorem payouts_drained_sample : ∃ p db', run services ⟨sampleDb, (), []⟩ claimedAndGone = some p ∧
    List.Forall₂ (Worked p.store [uid 3005]) p.store.payouts.rows db'.payouts.rows ∧
    ∀ account ∈ p.store.ledgerAccounts.rows, isPayable account.type = true →
      (∀ q ∈ p.store.payouts.rows, q.ledgerAccountId = account.id → q.id ∈ [uid 3005] →
        q.status = .SUCCESS ∨ Due p.store q) →
      balanceOf account.type (entriesOf db' account.id) = restOn p.store [uid 3005] account.id := by
  obtain ⟨p, hp⟩ := Option.isSome_iff_exists.mp
    (by decide +kernel : (run services ⟨sampleDb, (), []⟩ claimedAndGone).isSome = true)
  have harises : Arises p.store := ⟨_, p, rfl, rfl, rfl, reach_of_run (along_any _) hp, rfl⟩
  obtain ⟨ds, hds, hlabels⟩ :=
    perform_labels Operation.program agreeable [(.processPayout (uid 3005), inputAt 9)] [] p.store
  exact ⟨p, _, hp, payouts_drained harises
    (history_perform [(.processPayout (uid 3005), inputAt 9)] .nil) (by rw [hds]; exact hlabels)
    (heeds_perform agreeable_pays (by simp))⟩

/-! ### The sweep -/

lemma Sendable.passes (h : Sendable db account) : passesGate db account = true := by
  rw [passesGate_iff]
  cases h with
  | entertainer e hmem htype howner name bankCode accountNumber reason hsend =>
    have hgate : e.kycStatus = .VERIFIED ∧ e.accountConfirmedAt ≠ none := by
      by_contra hno
      obtain ⟨reason', hhold⟩ := entertainerDestination_hold.mpr hno
      rw [hsend] at hhold
      cases hhold
    exact ⟨e.id, howner, .inl ⟨htype, e, hmem, rfl, hgate⟩⟩
  | venue v hmem htype howner name bankCode accountNumber reason hsend =>
    have hgate : v.accountConfirmedAt ≠ none := by
      by_contra hno
      obtain ⟨reason', hhold⟩ := venueDestination_hold.mpr (not_not_intro hno)
      rw [hsend] at hhold
      cases hhold
    exact ⟨v.id, howner, .inr ⟨htype, v, hmem, rfl, hgate⟩⟩

lemma open_of_candidate {now : Time} (h : isCandidate now row account = true) :
    OPEN_STATUSES.contains row.status = true := by
  simp only [isCandidate, Bool.and_eq_true, Bool.or_eq_true, beq_iff_eq] at h
  rcases h.2 with (hs | hs) | ⟨hs, -⟩ <;> rw [hs] <;> decide

/-- When no more than a batch is due, the sweep enqueues each payout that is due and whose owner can be paid. -/
lemma enqueued_of_due {w : Input} {o : (q : Ask) → Except Err (Ans q)}
    (haccepts : ∀ payoutId, o (.addPayoutJob payoutId 0) = .ok ()) (hfew : (dueRows w.now db).length ≤ 500)
    (hrow : row ∈ db.payouts.rows) (hmem : account ∈ db.ledgerAccounts.rows) (hid : account.id = row.ledgerAccountId)
    (hsend : Sendable db account) (hcandidate : isCandidate w.now row account = true) : Enqueued w o db row.id := by
  refine enqueued_of_passing (c := (row.id, account)) haccepts (List.mem_filter.mpr ⟨?_, hsend.passes⟩)
  rw [List.take_of_length_le (by rw [orderedRows_perm.length_eq]; exact hfew), orderedRows_perm.mem_iff, mem_dueRows]
  exact ⟨row, hrow, rfl, (Table.find_eq_some names_accountId).mpr ⟨hmem, by simp [hid]⟩, hcandidate⟩

/-- **A sweep and its jobs recover what was left behind.** From any state the services reached, if no more than a
batch is due, what the sweep enqueues includes every payout that waits, or whose run is gone for a quarter of an
hour, and can be made; after the jobs it is made, and an account on which nothing else is owed is even. -/
theorem sweep_recovers {w : Input} {o : (q : Ask) → Except Err (Ans q)} {jobs : List Uuid} (hdb : Arises db)
    (haccepts : ∀ payoutId, o (.addPayoutJob payoutId 0) = .ok ()) (hfew : (dueRows w.now db).length ≤ 500)
    (hall : ∀ id, Enqueued w o db id → id ∈ jobs) (h : History Faultless Operation.program db ds db')
    (hjobs : ds.map (·.label) = jobs.map .processPayout) (hlogs : ∀ d ∈ ds, Heeds Pays d.log) :
    ∀ account ∈ db.ledgerAccounts.rows, Sendable db account →
      (∀ p ∈ db.payouts.rows, p.ledgerAccountId = account.id → isCandidate w.now p account = true →
        ∃ q ∈ db'.payouts.rows, obligation q = obligation p ∧ q.status = .SUCCESS) ∧
      ((∀ p ∈ db.payouts.rows, p.ledgerAccountId = account.id → p.status = .SUCCESS ∨
        isCandidate w.now p account = true) → balanceOf account.type (entriesOf db' account.id) = 0) := by
  intro account hmem hsend
  have hjob : ∀ p ∈ db.payouts.rows, p.ledgerAccountId = account.id → isCandidate w.now p account = true →
      p.id ∈ jobs := fun p hp hid hcandidate =>
    hall _ (enqueued_of_due haccepts hfew hp hmem hid.symm hsend hcandidate)
  have hdue : ∀ p : Payout, p.ledgerAccountId = account.id → isCandidate w.now p account = true → Due db p :=
    fun p hid hcandidate => ⟨open_of_candidate hcandidate, account, hmem, hid.symm, hsend⟩
  obtain ⟨hrows, hbalance⟩ := payouts_drained hdb h hjobs hlogs
  refine ⟨fun p hp hid hcandidate => ?_, fun heven => ?_⟩
  · obtain ⟨q, hq, hworked⟩ := exists_of_forall₂ (List.Forall₂.flip (R := flip _) hrows) hp
    exact ⟨q, hq, hworked.owed, hworked.made (hdue p hid hcandidate) (hjob p hp hid hcandidate)⟩
  · rw [hbalance account hmem hsend.payable.1 fun p hp hid _ => (heven p hp hid).imp_right (hdue p hid), restOn,
      List.filter_eq_nil_iff.mpr, List.map_nil, List.sum_nil]
    rintro p hp hleft
    simp only [decide_eq_true_eq] at hleft
    rcases heven p hp hleft.1 with hs | hcandidate
    · exact hleft.2.1 hs
    · exact hleft.2.2 (hjob p hp hleft.1 hcandidate)

/-- Later than a quarter of an hour after the worker was gone. -/
def sweepTime : Input := { inputAt 0 with now := 1000000 }

theorem sweep_recovers_sample : ∃ p db', run services ⟨sampleDb, (), []⟩ claimedAndGone = some p ∧
    ∀ account ∈ p.store.ledgerAccounts.rows, Sendable p.store account →
      (∀ q ∈ p.store.payouts.rows, q.ledgerAccountId = account.id → isCandidate sweepTime.now q account = true →
        ∃ q' ∈ db'.payouts.rows, obligation q' = obligation q ∧ q'.status = .SUCCESS) ∧
      ((∀ q ∈ p.store.payouts.rows, q.ledgerAccountId = account.id → q.status = .SUCCESS ∨
        isCandidate sweepTime.now q account = true) → balanceOf account.type (entriesOf db' account.id) = 0) := by
  obtain ⟨p, hp, hfew⟩ := (Option.any_eq_true _ _).mp
    (by decide +kernel : ((run services ⟨sampleDb, (), []⟩ claimedAndGone).any fun p =>
      (dueRows sweepTime.now p.store).length ≤ 500) = true)
  have hp : run services ⟨sampleDb, (), []⟩ claimedAndGone = some p := hp
  have harises : Arises p.store := ⟨_, p, rfl, rfl, rfl, reach_of_run (along_any _) hp, rfl⟩
  let jobs := (dueRows sweepTime.now p.store).map Prod.fst
  let acts := jobs.map fun id => (Operation.processPayout id, sweepTime)
  obtain ⟨ds, hds, hlabels⟩ := perform_labels Operation.program agreeable acts [] p.store
  have hall : ∀ id, Enqueued sweepTime agreeable p.store id → id ∈ jobs := by
    intro id hid
    obtain ⟨c, hc, rfl, -⟩ := (enqueued_iff (fun _ => rfl) sweepCandidates_run).mp hid
    exact List.mem_map_of_mem (batch_due hc)
  have hjobs : (perform Operation.program agreeable [] p.store acts).1.map (·.label) = jobs.map .processPayout := by
    rw [hds, List.nil_append, hlabels, List.map_map]
    rfl
  exact ⟨p, _, hp, sweep_recovers harises (fun _ => rfl) (by simpa using hfew) hall (history_perform acts .nil) hjobs
    (heeds_perform agreeable_pays (by simp))⟩

end Splitcore.Money
