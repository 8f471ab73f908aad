import Splitcore.Interleaving.Triples
import Splitcore.Money.Services
import Splitcore.Money.Tracking
import Splitcore.Relational.Single

/-!
A worker whose provider pays: what becomes of the payout of its job, and that it touches no other.
-/

namespace Splitcore.Money

open Relational Interleaving Ledger

/-- The provider knows how every transfer went, and makes those it is asked for. -/
def Pays : Replies App
  | .verifyTransfer _, a => ∃ status, a = .ok status ∧ status ≠ .pending ∧ status ≠ .requires_action
  | .createRecipient _, a => ∃ code, a = .ok code
  | .initiateTransfer _, a => ∃ transfer : Transfer, a = .ok transfer ∧ transfer.status = .success
  | _, _ => True

variable {w : Input} {s s' db db' db'' : Db} {id : Uuid} {site : Site} {α β : Type} {ok : Replies App}
  {account : LedgerAccount} {row : Payout} {reference : String}

lemma yields_statement {m : Tx α} {Q : Except Err α → Db → Prop} (hok : ∀ w a s', m.run w s = .ok (a, s') → Q (.ok a) s')
    (herror : ∀ w e, m.run w s = .error e → Q (.error e) s) : Yields ok Q (statement site m) s :=
  yields_command hok herror

/-! ### The other payouts -/

/-- The payout is still owed as it was, and is the same row unless it is the one of `id`. -/
def Only (id : Uuid) (p q : Payout) : Prop := obligation q = obligation p ∧ (p.id ≠ id → q = p)

/-- Of the payouts no more is changed than that of `id`; the owners of accounts stay as they are. -/
structure Touches (id : Uuid) (db db' : Db) : Prop where
  entertainers : db'.entertainers = db.entertainers
  venues : db'.venues = db.venues
  rows : List.Forall₂ (Only id) db.payouts.rows db'.payouts.rows

lemma Only.refl (p : Payout) : Only id p p := ⟨rfl, fun _ => rfl⟩

lemma forall₂_trans {γ : Type} {R R' R'' : γ → γ → Prop} (hR : ∀ a b c, R a b → R' b c → R'' a c) {l l' l'' : List γ}
    (h : List.Forall₂ R l l') (h' : List.Forall₂ R' l' l'') : List.Forall₂ R'' l l'' := by
  induction h generalizing l'' with
  | nil =>
    cases h'
    exact .nil
  | cons hab _ ih =>
    obtain ⟨c, rest, hbc, hrest, rfl⟩ := List.forall₂_cons_left_iff.mp h'
    exact .cons (hR _ _ _ hab hbc) (ih hrest)

lemma Only.trans {p q r : Payout} (h : Only id p q) (h' : Only id q r) : Only id p r := by
  have hid : q.id = p.id := congrArg Obligation.id h.1
  refine ⟨h'.1.trans h.1, fun hne => ?_⟩
  rw [h'.2 (by rwa [hid]), h.2 hne]

lemma Touches.refl (db : Db) : Touches id db db := ⟨rfl, rfl, List.forall₂_same.mpr fun p _ => .refl p⟩

lemma Touches.trans (h : Touches id db db') (h' : Touches id db' db'') : Touches id db db'' :=
  ⟨h'.entertainers.trans h.entertainers, h'.venues.trans h.venues, forall₂_trans (fun _ _ _ h₁ h₂ => h₁.trans h₂) h.rows h'.rows⟩

/-- An update of the one payout. -/
lemma only_update {t t' : Table Payout} {guard : Payout → Bool} {update : Payout → Payout}
    (h : t.update guard update = some t') (hguard : ∀ p, guard p = true → p.id = id)
    (hkeeps : ∀ p, obligation (update p) = obligation p) : List.Forall₂ (Only id) t.rows t'.rows := by
  rw [Table.rows_update h, List.forall₂_map_right_iff, List.forall₂_same]
  intro p _
  split
  · rename_i hp
    exact ⟨hkeeps p, fun hne => absurd (hguard p hp) hne⟩
  · exact .refl p

/-- Whatever the program does, it touches only this payout. -/
def Confined (ok : Replies App) (id : Uuid) (p : Prog App α) : Prop :=
  ∀ s, Yields ok (fun _ s' => Touches id s s') p s

lemma confined_ret {a : α} : Confined ok id (.ret a) := fun s => Touches.refl s

lemma confined_raise {e : Err} : Confined ok id (.raise e : Prog App α) := fun s => Touches.refl s

lemma confined_ofExcept {r : Except Err α} : Confined ok id (.ofExcept r) := fun s => yields_ofExcept (.refl s)

lemma confined_query {f : Db → α} : Confined ok id (query site f) := fun s => yields_query (.refl s)

/-- The rest has to be looked at only for the answers that may arrive. -/
lemma confined_request {q : Ask} {k : Ans q → Prog App β} (h : ∀ a, ok q (.ok a) → Confined ok id (k a)) :
    Confined ok id (request q >>= k) := fun s => by
  refine yields_bind (yields_request fun a ha => ?_)
  rcases a with e | a
  · exact .refl s
  · exact h a ha s

lemma confined_statement {m : Tx α} (h : ∀ w s a s', m.run w s = .ok (a, s') → Touches id s s') :
    Confined ok id (statement site m) := fun s => yields_statement (fun w a s' => h w s a s') fun _ _ _ => .refl s

lemma confined_bind {p : Prog App α} {k : α → Prog App β} (hp : Confined ok id p) (hk : ∀ a, Confined ok id (k a)) :
    Confined ok id (p >>= k) := fun s => yields_bind <| (hp s).mono fun r s₁ h₁ => by
  rcases r with e | a
  · exact h₁
  · exact (hk a s₁).mono fun _ _ h₂ => h₁.trans h₂

lemma touches_updateMany {guard : Payout → Bool} {update : Payout → Payout} {n m : ℕ}
    (h : Model.payout.updateMany guard update w (s, 0) = .ok (n, s', m)) (hguard : ∀ p, guard p = true → p.id = id)
    (hkeeps : ∀ p, obligation (update p) = obligation p) : Touches id s s' := by
  obtain ⟨-, t, ht, heq⟩ := Model.updateMany_ok h
  obtain rfl : s' = { s with payouts := t } := congrArg Prod.fst heq
  exact ⟨rfl, rfl, only_update ht hguard hkeeps⟩

lemma touches_update {guard : Payout → Bool} {update : Payout → Payout} {u : Unit} {m : ℕ}
    (h : Model.payout.update guard update w (s, 0) = .ok (u, s', m)) (hguard : ∀ p, guard p = true → p.id = id)
    (hkeeps : ∀ p, obligation (update p) = obligation p) : Touches id s s' := by
  obtain ⟨t, ht, heq⟩ := Model.update_ok h
  obtain rfl : s' = { s with payouts := t } := congrArg Prod.fst heq
  exact ⟨rfl, rfl, only_update ht hguard hkeeps⟩

lemma markSucceeded_confined : Confined ok id (markSucceeded id reference) := by
  refine confined_bind confined_query fun found => ?_
  rcases found with _ | ⟨payout, account⟩
  · exact confined_raise
  refine confined_bind confined_ofExcept fun entries => confined_bind (confined_statement fun w s b s' hm => ?_)
    fun _ => confined_ret
  obtain ⟨n, hm⟩ := Tx.run_ok.mp hm
  simp only [markSucceededTransaction, Tx.bind_ok, Tx.now_ok] at hm
  obtain ⟨_, _, ⟨rfl, rfl⟩, hm⟩ := hm
  rcases claimAndPost_ok hm with ⟨rfl, -⟩ | ⟨-, -, -, payouts', accounts', es, hupd, -, rfl, -⟩
  · exact .refl s'
  · refine ⟨rfl, rfl, ?_⟩
    refine only_update hupd (fun p hp => ?_) fun _ => rfl
    simp only [Bool.and_eq_true, beq_iff_eq] at hp
    exact hp.1.1

lemma markForReview_confined {reason : String} : Confined ok id (markForReview id reason) :=
  confined_statement fun w s a s' hm => by
    obtain ⟨n, h⟩ := Tx.run_ok.mp hm
    simp only [Tx.bind_ok, Tx.now_ok, Tx.pure_ok] at h
    obtain ⟨_, _, ⟨rfl, rfl⟩, c, σ₁, hupd, -, rfl⟩ := h
    refine touches_updateMany hupd (fun p hp => ?_) fun _ => rfl
    simp only [Bool.and_eq_true, beq_iff_eq] at hp
    exact hp.1

lemma hold_confined : Confined ok row.id (hold row) := by
  unfold hold
  split
  · refine confined_statement fun w s a s' hm => ?_
    obtain ⟨n, h⟩ := Tx.run_ok.mp hm
    simp only [Tx.bind_ok, Tx.now_ok, Tx.pure_ok] at h
    obtain ⟨_, _, ⟨rfl, rfl⟩, c, σ₁, hupd, -, rfl⟩ := h
    refine touches_updateMany hupd (fun p hp => ?_) fun _ => rfl
    simp only [Bool.and_eq_true, beq_iff_eq] at hp
    exact hp.1
  · exact confined_ret

lemma claimAttempt_confined : Confined ok row.id (claimAttempt row) :=
  confined_statement fun w s a s' hm => by
    obtain ⟨n, h⟩ := Tx.run_ok.mp hm
    simp only [Tx.bind_ok, Tx.now_ok] at h
    obtain ⟨_, _, ⟨rfl, rfl⟩, hupd⟩ := h
    refine touches_updateMany hupd (fun p hp => ?_) fun _ => rfl
    simp only [Bool.and_eq_true, beq_iff_eq] at hp
    exact hp.1.1

lemma saveRecipient_confined {code : String} : Confined ok id (saveRecipient id code) :=
  confined_statement fun w s a s' hm => by
    obtain ⟨n, h⟩ := Tx.run_ok.mp hm
    simp only [Tx.bind_ok, Tx.now_ok] at h
    obtain ⟨_, _, ⟨rfl, rfl⟩, hupd⟩ := h
    exact touches_update hupd (fun p hp => by simpa using hp) fun _ => rfl

lemma resolveDestination_confined : Confined ok id (resolveDestination account) := by
  unfold resolveDestination
  split
  · exact confined_ret
  · exact confined_bind confined_query fun _ => confined_ret
  · exact confined_bind confined_query fun _ => confined_ret
  · exact confined_ret

lemma newAttempt_confined : Confined Pays row.id (newAttempt row account) := by
  refine confined_bind resolveDestination_confined fun destination => ?_
  cases destination with
  | review reason => exact markForReview_confined
  | hold reason => exact hold_confined
  | send recipientName bankCode accountNumber transferReason =>
    refine confined_bind claimAttempt_confined fun count => ?_
    split
    · exact confined_ret
    refine confined_request fun code _ => confined_bind saveRecipient_confined fun _ => ?_
    refine confined_request fun transfer htransfer => ?_
    obtain ⟨_, heq, hstatus⟩ := htransfer
    cases heq
    rw [transferAnswered, hstatus]
    exact markSucceeded_confined

/-- A job is about one payout. -/
theorem processPayout_confined (id : Uuid) : Confined Pays id (processPayout id) := by
  intro s
  refine yields_bind (yields_query ?_)
  rcases hfound : payoutWithAccount (·.id == id) s with _ | ⟨payout, account⟩
  · exact .refl s
  obtain rfl : payout.id = id := by simpa using Table.of_find (payoutWithAccount_find hfound)
  simp only
  split
  · exact .refl s
  split
  · exact newAttempt_confined s
  · refine confined_request (fun previous hprevious => ?_) s
    obtain ⟨status, heq, hpending, haction⟩ := hprevious
    cases heq
    cases previous with
    | success => exact markSucceeded_confined
    | failed | reversed | not_found => exact newAttempt_confined
    | pending => exact absurd rfl hpending
    | requires_action => exact absurd rfl haction

/-! ### Postings on accounts that are there -/

section Known

variable {σ : Db × ℕ} {type : LedgerAccountType} {owner : Option Uuid} {specs : List LedgerEntrySpec} {ids : AccountIds}

/-- The account of each line is there. -/
def HasAccounts (db : Db) (specs : List LedgerEntrySpec) : Prop :=
  ∀ e ∈ specs, ∃ id, ⟨id, e.accountType, e.ownerId⟩ ∈ db.ledgerAccounts.rows

lemma resolveAccountId_known (h : ⟨id, type, owner⟩ ∈ σ.1.ledgerAccounts.rows) :
    resolveAccountId type owner w σ = .ok (id, σ.1, σ.2 + 1) := by
  have hfind : σ.1.ledgerAccounts.find (isAccount type owner) = some ⟨id, type, owner⟩ :=
    (Table.find_eq_some names_account).mpr ⟨h, by simp [isAccount]⟩
  simp only [resolveAccountId, insertAccount, Tx.bind_ok, Tx.freshId_ok, Model.findFirst_ok]
  exact ⟨(), (σ.1, σ.2 + 1), ⟨_, (σ.1, σ.2 + 1), ⟨rfl, rfl⟩, _, _, ⟨hfind, rfl⟩, by simp⟩, _, _, ⟨hfind, rfl⟩, rfl⟩

lemma accountIds_known (ids : AccountIds) (h : HasAccounts σ.1 specs) :
    ∃ ids' n, accountIds specs ids w σ = .ok (ids', σ.1, n) := by
  induction specs generalizing ids σ with
  | nil => exact ⟨ids, σ.2, rfl⟩
  | cons e specs ih =>
    have hrest : HasAccounts σ.1 specs := fun e he => h e (List.mem_cons_of_mem _ he)
    unfold accountIds
    split
    · exact ih _ hrest
    · obtain ⟨id, hid⟩ := h e (by simp)
      obtain ⟨ids', n, hids⟩ := ih (σ := (σ.1, σ.2 + 1)) (((e.accountType, e.ownerId), id) :: ids) hrest
      exact ⟨ids', n, Tx.bind_ok.mpr ⟨id, _, resolveAccountId_known hid, hids⟩⟩

lemma post_known (origin : Origin) (txId : Uuid) (hbalanced : assertBalanced specs = .ok ())
    (h : HasAccounts σ.1 specs) : ∃ postings n, post origin txId specs w σ = .ok ((), { σ.1 with postings }, n) := by
  obtain ⟨ids, n, hids⟩ := accountIds_known (w := w) [] h
  refine ⟨σ.1.postings ++ [⟨origin, txId, specs.map (row txId ids w.now)⟩], n, ?_⟩
  simp only [post, Tx.bind_ok, Tx.liftExcept_ok, Tx.now_ok, Tx.write_ok]
  exact ⟨(), σ, ⟨hbalanced, rfl⟩, ids, _, hids, _, _, ⟨rfl, rfl⟩, rfl, rfl⟩

/-- The row is there, so the update finds it and the entries are posted. -/
lemma claimAndPost_known {guard : Payout → Bool} {k : Key} (origin : Origin) (txId : Uuid) (update : Payout → Payout)
    (hnamed : Table.Names guard k) (hrow : row ∈ s.payouts.rows) (hguard : guard row = true)
    (hkeys : ∀ p, Indexed.keys (update p) = Indexed.keys p) (hbalanced : assertBalanced specs = .ok ())
    (h : HasAccounts s specs) : ∃ t postings n, s.payouts.update guard update = some t ∧
      claimAndPost guard update origin txId specs w (s, 0) = .ok (true, { s with payouts := t, postings }, n) := by
  obtain ⟨t, ht⟩ := Table.update_of_keys (t := s.payouts) (p := guard) (f := update) fun p _ => hkeys p
  obtain ⟨postings, n, hpost⟩ := post_known (w := w) (σ := ({ s with payouts := t }, 0)) origin txId hbalanced h
  refine ⟨t, postings, n, ht, ?_⟩
  unfold claimAndPost
  refine Tx.bind_ok.mpr ⟨1, ({ s with payouts := t }, 0), ?_, ?_⟩
  · simp only [Model.updateMany, Tx.bind_ok, Tx.read_ok, Tx.write_ok, Tx.pure_ok]
    exact ⟨_, _, ⟨Table.countP_names hnamed hrow hguard, rfl⟩, (), ({ s with payouts := t }, 0),
      ⟨by simp only [Model.payout, ht, Option.map_some], rfl⟩, rfl, rfl⟩
  · rw [if_neg one_ne_zero]
    exact Tx.bind_ok.mpr ⟨(), _, hpost, rfl⟩

end Known

/-! ### Its own payout -/

/-- The owner passes the gate and has a bank account that can be named to the provider. -/
inductive Sendable (db : Db) (account : LedgerAccount) : Prop
  | entertainer (e : Entertainer) (hmem : e ∈ db.entertainers.rows) (htype : account.type = .ENTERTAINER_PAYABLE)
      (howner : account.ownerId = some e.id) (name bankCode accountNumber reason : String)
      (hsend : entertainerDestination (some e) = .send name bankCode accountNumber reason) : Sendable db account
  | venue (v : Venue) (hmem : v ∈ db.venues.rows) (htype : account.type = .VENUE_PAYABLE)
      (howner : account.ownerId = some v.id) (name bankCode accountNumber reason : String)
      (hsend : venueDestination (some v) = .send name bankCode accountNumber reason) : Sendable db account

/-- A payout that is not made yet and can be posted without opening an account. -/
structure Owing (db : Db) (row : Payout) (account : LedgerAccount) : Prop where
  mem : row ∈ db.payouts.rows
  account_mem : account ∈ db.ledgerAccounts.rows
  account_id : account.id = row.ledgerAccountId
  payable : isPayable account.type = true
  owner : account.ownerId ≠ none
  postable : Postable row.amountKobo
  clearing : ∃ id, ⟨id, .PROCESSOR_CLEARING, none⟩ ∈ db.ledgerAccounts.rows
  unpaid : row.status ≠ .SUCCESS

def Succeeded (id : Uuid) (db : Db) : Prop := ∃ q ∈ db.payouts.rows, q.id = id ∧ q.status = .SUCCESS

lemma Sendable.congr (h : Sendable db account) (hent : db'.entertainers = db.entertainers)
    (hven : db'.venues = db.venues) : Sendable db' account := by
  cases h with
  | entertainer e hmem htype howner name bankCode accountNumber reason hsend =>
    exact .entertainer e (hent ▸ hmem) htype howner name bankCode accountNumber reason hsend
  | venue v hmem htype howner name bankCode accountNumber reason hsend =>
    exact .venue v (hven ▸ hmem) htype howner name bankCode accountNumber reason hsend

lemma Sendable.payable (h : Sendable db account) : isPayable account.type = true ∧ account.ownerId ≠ none := by
  cases h with
  | entertainer e _ htype howner => exact ⟨by rw [htype]; rfl, by rw [howner]; simp⟩
  | venue v _ htype howner => exact ⟨by rw [htype]; rfl, by rw [howner]; simp⟩

/-- The destination of such an account. -/
lemma resolveDestination_send (h : Sendable db account) {Q : Except Err PayoutDestination → Db → Prop}
    (hQ : ∀ name bankCode accountNumber reason, Q (.ok (.send name bankCode accountNumber reason)) db) :
    Yields ok Q (resolveDestination account) db := by
  cases h with
  | entertainer e hmem htype howner name bankCode accountNumber reason hsend =>
    have hfind : db.entertainers.find (·.id == e.id) = some e :=
      (Table.find_eq_some names_entertainer).mpr ⟨hmem, by simp⟩
    rw [resolveDestination, howner, htype]
    refine yields_bind (yields_query ?_)
    rw [hfind]
    simp only [hsend]
    exact hQ name bankCode accountNumber reason
  | venue v hmem htype howner name bankCode accountNumber reason hsend =>
    have hfind : db.venues.find (·.id == v.id) = some v := (Table.find_eq_some names_venue).mpr ⟨hmem, by simp⟩
    rw [resolveDestination, howner, htype]
    refine yields_bind (yields_query ?_)
    rw [hfind]
    simp only [hsend]
    exact hQ name bankCode accountNumber reason

lemma names_accountId : Table.Names (fun a : LedgerAccount => a.id == id) (.id id) := fun a ha => by
  simp only [beq_iff_eq] at ha
  simp [Indexed.keys, ha]

lemma Owing.find (h : Owing db row account) : payoutWithAccount (·.id == row.id) db = some (row, account) := by
  have hrow : db.payouts.find (·.id == row.id) = some row := (Table.find_eq_some names_payout).mpr ⟨h.mem, by simp⟩
  have haccount : db.ledgerAccounts.find (·.id == row.ledgerAccountId) = some account :=
    (Table.find_eq_some names_accountId).mpr ⟨h.account_mem, by simp [h.account_id]⟩
  simp [payoutWithAccount, hrow, haccount]

/-- It is still to be made after an update that only says how far it got. -/
lemma Owing.updated {guard : Payout → Bool} {update : Payout → Payout} {t : Table Payout} (h : Owing db row account)
    (hguard : guard row = true) (ht : db.payouts.update guard update = some t)
    (hkeeps : obligation (update row) = obligation row) (hstatus : (update row).status ≠ .SUCCESS) :
    Owing { db with payouts := t } (update row) account where
  mem := Table.mem_update_self h.mem hguard ht
  account_mem := h.account_mem
  account_id := h.account_id.trans (congrArg Obligation.ledgerAccountId hkeeps).symm
  payable := h.payable
  owner := h.owner
  postable := by
    rw [show (update row).amountKobo = row.amountKobo from congrArg Obligation.amountKobo hkeeps]
    exact h.postable
  clearing := h.clearing
  unpaid := hstatus

lemma markSucceededTransaction_commits (h : Owing db row account) (href : row.transferReference = some reference)
    (w : Input) : ∃ db', (markSucceededTransaction row.id reference row.transactionId
      (payoutEntries (payoutForPosting row account))).run w db = .ok (true, db') ∧ Succeeded row.id db' := by
  have hnamed : Table.Names (fun p : Payout => p.id == row.id && p.transferReference == some reference &&
      p.status != .SUCCESS) (.id row.id) := names_id fun p hp => by
    simp only [Bool.and_eq_true, beq_iff_eq] at hp
    exact hp.1.1
  have hguard : (row.id == row.id && row.transferReference == some reference && row.status != .SUCCESS) = true := by
    simp [href, h.unpaid]
  have hpostable : Postable (payoutForPosting row account).amountKobo := h.postable
  have haccounts : HasAccounts db (payoutEntries (payoutForPosting row account)) := by
    intro e he
    simp only [payoutEntries, List.mem_cons, List.not_mem_nil, or_false] at he
    rcases he with rfl | rfl
    · exact ⟨account.id, h.account_mem⟩
    · exact h.clearing
  have hbalanced : assertBalanced (payoutEntries (payoutForPosting row account)) = .ok () := by
    rw [assertBalanced_ok]
    exact ⟨by simp [payoutEntries], by simpa [payoutEntries] using hpostable, by simp [payoutEntries, totalOf]⟩
  obtain ⟨t, postings, n, ht, hrun⟩ := claimAndPost_known (w := w) .payout row.transactionId (fun p => { p with
      status := .SUCCESS, completedAt := some w.now, failureReason := none, updatedAt := w.now })
    hnamed h.mem hguard (fun _ => rfl) hbalanced haccounts
  exact ⟨{ db with payouts := t, postings }, Tx.run_ok.mpr ⟨n, hrun⟩, _, Table.mem_update_self h.mem hguard ht, rfl, rfl⟩

lemma markSucceeded_succeeds (h : Owing db row account) (hid : row.id = id)
    (href : row.transferReference = some reference) :
    Yields ok (fun r s' => r = .ok () ∧ Succeeded id s') (markSucceeded id reference) db := by
  subst hid
  have hentries : computePayoutEntries (payoutForPosting row account) =
      .ok (payoutEntries (payoutForPosting row account)) :=
    computePayoutEntries_ok.mpr ⟨h.payable, h.owner, h.postable, rfl⟩
  refine yields_bind (yields_query ?_)
  rw [h.find]
  refine yields_bind (yields_ofExcept ?_)
  rw [hentries]
  refine yields_bind (yields_statement (fun w b s' hm => ?_) fun w e hm => ?_)
  · obtain ⟨db', hrun, hdone⟩ := markSucceededTransaction_commits h href w
    rw [hrun] at hm
    obtain ⟨rfl, rfl⟩ := Prod.mk.inj (Except.ok.inj hm)
    exact ⟨rfl, hdone⟩
  · obtain ⟨db', hrun, -⟩ := markSucceededTransaction_commits h href w
    rw [hrun] at hm
    cases hm

/-- The row as a claim writes it. -/
def claimedRow (now : Time) (row p : Payout) : Payout :=
  { p with
    status := .PROCESSING, attempts := row.attempts + 1
    transferReference := some (transferReference row.id (row.attempts + 1))
    attemptedAt := some now, failureReason := none, updatedAt := now }

/-- The reference of the next attempt is no other payout's. -/
lemma claimedRow_fresh {now : Time} {q : Payout} (hrefs : RefsAgree db) (hrow : row ∈ db.payouts.rows)
    (hq : q ∈ db.payouts.rows) (hne : q.id ≠ row.id) :
    List.Disjoint (Indexed.keys (claimedRow now row row)) (Indexed.keys q) := by
  intro k hk hkq
  have hkeys : k ∈ Indexed.keys row ∨ k = .text (transferReference row.id (row.attempts + 1)) := by
    simp only [Indexed.keys, claimedRow, Option.map_some, Option.toList_some, List.mem_append, List.mem_cons,
      List.not_mem_nil, or_false] at hk ⊢
    rcases hk with hk | hk
    · exact .inl (.inl hk)
    · exact .inr hk
  rcases hkeys with hk | rfl
  · exact hne (congrArg Payout.id (Table.eq_of_key hq hrow hkq hk))
  · have href : q.transferReference = some (transferReference row.id (row.attempts + 1)) := by
      simpa [Indexed.keys] using hkq
    rw [hrefs q hq, referenceAt] at href
    split at href
    · cases href
    · exact hne (transferReference_inj.mp (Option.some.inj href)).1

lemma claimAttempt_run (h : Owing db row account) (hrefs : RefsAgree db)
    (hopen : OPEN_STATUSES.contains row.status = true) (w : Input) : ∃ t, (do
      let now ← Tx.now
      Model.payout.updateMany
        (fun p => p.id == row.id && OPEN_STATUSES.contains p.status && p.attempts == row.attempts)
        (claimedRow now row) : Tx ℕ).run w db = .ok (1, { db with payouts := t }) ∧
      Owing { db with payouts := t } (claimedRow w.now row row) account := by
  have hnamed : Table.Names (fun p : Payout => p.id == row.id && OPEN_STATUSES.contains p.status &&
      p.attempts == row.attempts) (.id row.id) := names_id fun p hp => by
    simp only [Bool.and_eq_true, beq_iff_eq] at hp
    exact hp.1.1
  have hguard : (row.id == row.id && OPEN_STATUSES.contains row.status && row.attempts == row.attempts) = true := by
    rw [hopen]
    simp
  obtain ⟨t, ht⟩ := Table.update_of_fresh (t := db.payouts) (f := claimedRow w.now row) hnamed h.mem hguard
    (by simp [Indexed.keys, claimedRow]) fun q hq hother => claimedRow_fresh hrefs h.mem hq fun heq => by
      rw [Table.eq_of_key (k := .id row.id) hq h.mem (by simp [Indexed.keys, heq]) (by simp [Indexed.keys]), hguard]
        at hother
      cases hother
  refine ⟨t, Tx.run_ok.mpr ⟨0, Tx.bind_ok.mpr ⟨w.now, (db, 0), rfl, ?_⟩⟩, h.updated hguard ht rfl (by simp [claimedRow])⟩
  simp only [Model.updateMany, Tx.bind_ok, Tx.read_ok, Tx.write_ok, Tx.pure_ok]
  exact ⟨_, _, ⟨Table.countP_names hnamed h.mem hguard, rfl⟩, (), ({ db with payouts := t }, 0),
    ⟨by simp only [Model.payout, ht, Option.map_some], rfl⟩, rfl, rfl⟩

/-- The attempt is claimed: the payout has the new reference. -/
lemma claimAttempt_claims (h : Owing db row account) (hrefs : RefsAgree db)
    (hopen : OPEN_STATUSES.contains row.status = true) :
    Yields ok (fun r s' => r = .ok 1 ∧ ∃ now, Owing s' (claimedRow now row row) account) (claimAttempt row) db := by
  refine yields_statement (fun w n s' hm => ?_) fun w e hm => ?_
  · obtain ⟨t, hrun, howing⟩ := claimAttempt_run h hrefs hopen w
    obtain ⟨rfl, rfl⟩ := Prod.mk.inj (Except.ok.inj (hrun.symm.trans hm))
    exact ⟨rfl, w.now, howing⟩
  · obtain ⟨t, hrun, -⟩ := claimAttempt_run h hrefs hopen w
    cases hrun.symm.trans hm

lemma saveRecipient_run (h : Owing db row account) (code : String) (w : Input) : ∃ t, (do
      let now ← Tx.now
      Model.payout.update (·.id == row.id)
        (fun p => { p with recipientCode := some code, updatedAt := now }) : Tx Unit).run w db =
          .ok ((), { db with payouts := t }) ∧
      Owing { db with payouts := t } { row with recipientCode := some code, updatedAt := w.now } account := by
  have hguard : (row.id == row.id) = true := by simp
  obtain ⟨t, ht⟩ := Table.update_of_keys (t := db.payouts) (p := fun p : Payout => p.id == row.id)
    (f := fun p => { p with recipientCode := some code, updatedAt := w.now }) fun _ _ => rfl
  refine ⟨t, Tx.run_ok.mpr ⟨0, Tx.bind_ok.mpr ⟨w.now, (db, 0), rfl, ?_⟩⟩, h.updated hguard ht rfl h.unpaid⟩
  refine Tx.bind_ok.mpr ⟨1, ({ db with payouts := t }, 0), ?_, rfl⟩
  simp only [Model.updateMany, Tx.bind_ok, Tx.read_ok, Tx.write_ok, Tx.pure_ok]
  exact ⟨_, _, ⟨Table.countP_names names_payout h.mem hguard, rfl⟩, (), ({ db with payouts := t }, 0),
    ⟨by simp only [Model.payout, ht, Option.map_some], rfl⟩, rfl, rfl⟩

lemma saveRecipient_saves (h : Owing db row account) (code : String) :
    Yields ok (fun r s' => r = .ok () ∧ ∃ now, Owing s' { row with recipientCode := some code, updatedAt := now } account)
      (saveRecipient row.id code) db := by
  refine yields_statement (fun w n s' hm => ?_) fun w e hm => ?_
  · obtain ⟨t, hrun, howing⟩ := saveRecipient_run h code w
    obtain ⟨-, rfl⟩ := Prod.mk.inj (Except.ok.inj (hrun.symm.trans hm))
    exact ⟨rfl, w.now, howing⟩
  · obtain ⟨t, hrun, -⟩ := saveRecipient_run h code w
    cases hrun.symm.trans hm

/-- A new attempt at an open payout is made. -/
lemma newAttempt_succeeds (h : Owing db row account) (hrefs : RefsAgree db)
    (hopen : OPEN_STATUSES.contains row.status = true) (hsend : Sendable db account) :
    Yields Pays (fun r s' => r = .ok () ∧ Succeeded row.id s') (newAttempt row account) db := by
  refine yields_bind (resolveDestination_send hsend fun name bankCode accountNumber reason => ?_)
  refine yields_bind ((claimAttempt_claims h hrefs hopen).mono ?_)
  rintro _ s₁ ⟨rfl, now, h₁⟩
  refine yields_bind (yields_request ?_)
  rintro _ ⟨code, rfl⟩
  refine yields_bind ((saveRecipient_saves h₁ code).mono ?_)
  rintro _ s₂ ⟨rfl, now', h₂⟩
  refine yields_bind (yields_request ?_)
  rintro _ ⟨transfer, rfl, hstatus⟩
  simp only [transferAnswered, hstatus]
  exact markSucceeded_succeeds h₂ rfl rfl

/-- **A job whose provider pays makes its payout.** -/
theorem processPayout_succeeds (h : Owing db row account) (hrefs : RefsAgree db)
    (hopen : OPEN_STATUSES.contains row.status = true) (hsend : Sendable db account) :
    Yields Pays (fun r s' => r = .ok () ∧ Succeeded row.id s') (processPayout row.id) db := by
  refine yields_bind (yields_query ?_)
  rw [h.find]
  simp only [hopen, Bool.not_true, Bool.false_eq_true, if_false]
  rcases href : truthy row.transferReference with _ | reference
  · exact newAttempt_succeeds h hrefs hopen hsend
  · refine yields_bind (yields_request ?_)
    rintro _ ⟨status, rfl, hpending, haction⟩
    cases status with
    | success => exact markSucceeded_succeeds h rfl (Option.filter_eq_some_iff.mp href).1
    | failed | reversed | not_found => exact newAttempt_succeeds h hrefs hopen hsend
    | pending => exact absurd rfl hpending
    | requires_action => exact absurd rfl haction

end Splitcore.Money
