import Splitcore.Money.Changes

/-!
Each statement of the services makes one of the changes, given what its run read before.
-/

namespace Splitcore.Money

open Relational Interleaving Ledger

variable {w : Input} {σ σ' : Db × ℕ} {s s' : Db}

/-! ### Transactions -/

lemma Owes.mono {db db' : Db} {id : Uuid} {spec : LedgerEntrySpec} {o : Obligation}
    (h : Owes db id spec o) (hacc : db.ledgerAccounts.rows <+: db'.ledgerAccounts.rows) :
    Owes db' id spec o :=
  ⟨h.1, h.2.1, hacc.subset h.2.2⟩

lemma createPayout_ok {account txId id : Uuid} {amount : ℤ}
    (h : createPayout account txId amount w σ = .ok (id, σ')) :
    ∃ t p, σ'.1 = { σ.1 with payouts := t } ∧ t.rows = σ.1.payouts.rows ++ [p] ∧
      p.id = id ∧ p.transactionId = txId ∧ p.amountKobo = amount ∧ p.ledgerAccountId = account ∧ Untried p := by
  simp only [createPayout, Tx.bind_ok, Tx.freshId_ok, Tx.now_ok] at h
  obtain ⟨_, _, ⟨rfl, rfl⟩, _, _, ⟨rfl, rfl⟩, h⟩ := h
  split at h
  · simp at h
  · rename_i hpos
    simp only [Tx.bind_ok, Tx.pure_ok] at h
    obtain ⟨⟨⟩, σ₁, hcreate, rfl, rfl⟩ := h
    obtain ⟨t, ht, rfl⟩ := Model.create_ok hcreate
    exact ⟨t, _, rfl, Table.rows_insert ht, rfl, rfl, rfl, rfl, rfl, rfl, rfl, by simpa using hpos⟩

/-- One payout for each line that is an obligation. -/
lemma createPayouts_ok {txId : Uuid} {specs : List LedgerEntrySpec} {ids : List Uuid}
    (h : createPayouts txId specs w σ = .ok (ids, σ')) : ∃ accounts' payouts' payouts,
      σ'.1 = { σ.1 with ledgerAccounts := accounts', payouts := payouts' } ∧
      σ.1.ledgerAccounts.rows <+: accounts'.rows ∧
      payouts'.rows = σ.1.payouts.rows ++ payouts ∧
      List.Forall₂ (Owes σ'.1 txId) (specs.filter isObligation) (payouts.map obligation) ∧
      (∀ p ∈ payouts, Untried p) ∧ payouts.map (·.id) = ids := by
  induction specs generalizing σ ids with
  | nil =>
    simp only [createPayouts, Tx.pure_ok] at h
    obtain ⟨rfl, rfl⟩ := h
    exact ⟨σ.1.ledgerAccounts, σ.1.payouts, [], rfl, List.prefix_rfl, by simp, .nil, by simp, rfl⟩
  | cons spec specs ih =>
    unfold createPayouts at h
    split at h
    · rename_i hno
      rw [List.filter_cons_of_neg (by simpa using hno)]
      exact ih h
    · rename_i hyes
      simp only [Tx.bind_ok, Tx.pure_ok] at h
      obtain ⟨account, σ₁, hacc, id, σ₂, hcreate, ids', σ₃, hrest, rfl, rfl⟩ := h
      obtain ⟨⟨t, ht, hpre⟩, hmem⟩ := resolveAccountId_ok hacc
      obtain ⟨t₂, p, h₂, hrows, hid, htx, hamount, haccount, huntried⟩ := createPayout_ok hcreate
      obtain ⟨accounts', payouts', payouts, h₃, hpre₃, hrows₃, howed, hall, hids⟩ := ih hrest
      have hmem₂ : σ₁.1.ledgerAccounts.rows <+: σ₃.1.ledgerAccounts.rows := by
        rw [h₃]; simpa [h₂] using hpre₃
      refine ⟨accounts', payouts', p :: payouts, ?_, ?_, ?_, ?_, ?_, ?_⟩
      · rw [h₃, h₂, ht]
      · refine hpre.trans ?_
        simpa [h₂, ht] using hpre₃
      · rw [hrows₃, h₂, hrows, ht]; simp
      · rw [List.filter_cons_of_pos (by simpa using hyes)]
        refine .cons ⟨htx, hamount, ?_⟩ howed
        rw [obligation, haccount]; exact hmem₂.subset hmem
      · exact List.forall_mem_cons.mpr ⟨huntried, hall⟩
      · rw [List.map_cons, hid, hids]

/-- The row behind what a run read. -/
lemma exists_quoted {payment : PaymentTransaction} (hk : Keeps s s')
    (h : ∃ p ∈ s.payments.rows, quoted p = quoted payment) :
    ∃ p ∈ s'.payments.rows, quoted p = quoted payment := by
  obtain ⟨p, hp, hq⟩ := h
  obtain ⟨p', hp', hq'⟩ := mem_map_of_prefix hk.payments hp
  exact ⟨p', hp', hq'.trans hq⟩

/-- The parts of the settlement transaction. -/
lemma settleTransaction_parts {paymentId : Uuid} {specs : List LedgerEntrySpec}
    {o : Option (List Uuid)} (h : (settleTransaction paymentId specs).run w s = .ok (o, s')) :
    o = none ∧ s' = s ∨ ∃ payments' σ₂ ids n, o = some ids ∧
      (∃ row ∈ s.payments.rows, row.id = paymentId ∧ SETTLEABLE.contains row.status = true) ∧
      s.payments.update (fun p => p.id == paymentId && SETTLEABLE.contains p.status)
        (fun p => { p with status := .SUCCESS, updatedAt := w.now }) = some payments' ∧
      post .settlement paymentId specs w ({ s with payments := payments' }, 0) = .ok ((), σ₂) ∧
      createPayouts paymentId specs w σ₂ = .ok (ids, s', n) := by
  obtain ⟨n, h⟩ := Tx.run_ok.mp h
  simp only [settleTransaction, Tx.bind_ok, claimPayment, Tx.now_ok] at h
  obtain ⟨count, σ₁, ⟨_, _, ⟨rfl, rfl⟩, hclaim⟩, h⟩ := h
  split at h
  · rename_i hzero
    subst hzero
    simp only [Tx.pure_ok] at h
    rw [Model.updateMany_zero hclaim] at h
    exact .inl ⟨h.1.symm, (congrArg Prod.fst h.2).symm⟩
  · rename_i hcount
    obtain ⟨row, hrow, hguard⟩ := Model.updateMany_pos hclaim hcount
    obtain ⟨-, payments', hupd, rfl⟩ := Model.updateMany_ok hclaim
    simp only [Tx.bind_ok, Tx.pure_ok] at h
    obtain ⟨⟨⟩, σ₂, hpost, ids, σ₃, hpayouts, rfl, rfl⟩ := h
    simp only [Bool.and_eq_true, beq_iff_eq] at hguard
    exact .inr ⟨payments', σ₂, ids, n, rfl, ⟨row, hrow, hguard⟩, hupd, hpost, hpayouts⟩

/-- What the settlement transaction does: nothing, if somebody else settled the payment; or it
claims the payment, posts the lines and creates their payouts. -/
lemma settleTransaction_ok {paymentId : Uuid} {specs : List LedgerEntrySpec}
    {o : Option (List Uuid)} (h : (settleTransaction paymentId specs).run w s = .ok (o, s')) :
    s' = s ∨ ∃ row ∈ s.payments.rows, row.id = paymentId ∧ SETTLEABLE.contains row.status = true ∧
      ∃ payments' accounts' payouts' payouts entries,
        s.payments.update (fun p => p.id == paymentId && SETTLEABLE.contains p.status)
          (fun p => { p with status := .SUCCESS, updatedAt := w.now }) = some payments' ∧
        s.ledgerAccounts.rows <+: accounts'.rows ∧ payouts'.rows = s.payouts.rows ++ payouts ∧
        s' = { s with
          payments := payments', ledgerAccounts := accounts', payouts := payouts'
          postings := s.postings ++ [⟨.settlement, paymentId, entries⟩] } ∧
        List.Forall₂ (Writes s' paymentId) specs entries ∧
        List.Forall₂ (Owes s' paymentId) (specs.filter isObligation) (payouts.map obligation) ∧
        ∀ p ∈ payouts, Untried p := by
  rcases settleTransaction_parts h with
    ⟨-, rfl⟩ | ⟨payments', σ₂, ids, n, -, ⟨row, hrow, hid, hstatus⟩, hupd, hpost, hpayouts⟩
  · exact .inl rfl
  · obtain ⟨-, db, entries, ⟨accounts₂, hdb, hpre₂⟩, hwritten, h₂⟩ := post_ok hpost
    obtain ⟨accounts', payouts', payouts, h₃, hpre₃, hrows, howed, huntried, -⟩ :=
      createPayouts_ok hpayouts
    have hbetween : db.ledgerAccounts.rows <+: s'.ledgerAccounts.rows := by
      rw [show s' = _ from h₃]; simpa [h₂] using hpre₃
    refine .inr ⟨row, hrow, hid, hstatus, payments', accounts', payouts', payouts, entries,
      hupd, ?_, ?_, ?_, hwritten.imp fun _ _ h => h.mono hbetween, howed, huntried⟩
    · refine List.IsPrefix.trans ?_ hpre₃
      simpa [h₂, hdb, Model.paymentTransaction] using hpre₂
    · rw [hrows, h₂, hdb]
    · rw [show s' = _ from h₃, h₂, hdb]

theorem settleTransaction_change {payment : PaymentTransaction} {rule : SplitRule}
    {specs : List LedgerEntrySpec} {o : Option (List Uuid)}
    (hp : ∃ p ∈ s.payments.rows, quoted p = quoted payment)
    (hr : ∃ r ∈ s.splitRules.rows, terms r = terms rule)
    (hsnap : payment.splitRuleId = some rule.id)
    (hspecs : computePaymentEntries (paymentForPosting payment) (splitForPosting rule) = .ok specs)
    (h : (settleTransaction payment.id specs).run w s = .ok (o, s')) : Change s s' := by
  rcases settleTransaction_ok h with rfl | ⟨row, hrow, hrowid, hopen, payments', accounts', payouts',
    payouts, entries, hupd, hpre, hrows, hafter, hwritten, howed, huntried⟩
  · exact .same
  -- the claimed row is the one the run read
  obtain ⟨p, hp, hq⟩ := hp
  obtain ⟨hid, hsnap', hposting⟩ := of_quoted hq
  obtain rfl : row = p := by
    have hkey : ∀ q : PaymentTransaction, q.id = payment.id → Key.id payment.id ∈ Indexed.keys q :=
      fun q hq => by simp [Indexed.keys, hq]
    exact Table.eq_of_key hrow hp (hkey row hrowid) (hkey p hid)
  obtain ⟨rule', hrule', hterms⟩ := hr
  have hsplit : splitForPosting rule' = splitForPosting rule := congrArg Prod.snd hterms
  have hrule : rule'.id = rule.id := congrArg Prod.fst hterms
  refine .settled
    { payment := row, rule := rule', specs, entries, payouts, payment_mem := hrow, open_ := hopen
      rule_mem := hrule', now := w.now, payments', claimed := ?_, snapshot := ?_, computed := ?_
      accounts', accounts_prefix := hpre, payouts', payouts_rows := hrows, after := ?_
      written := ?_, owed := ?_, untried := huntried }
  · rw [hsnap', hsnap, hrule]
  · rw [hposting, hsplit]; exact hspecs
  · rw [hrowid]; exact hupd
  · rw [hrowid]; exact hafter
  · rw [hrowid]; exact hwritten
  · rw [hrowid]; exact howed

/-- The payout and the account a run read, as they still are. -/
structure Seen (db : Db) (payout : Payout) (account : LedgerAccount) : Prop where
  owed : ∃ p ∈ db.payouts.rows, obligation p = obligation payout
  account_mem : account ∈ db.ledgerAccounts.rows
  account_id : account.id = payout.ledgerAccountId

lemma Seen.keeps {payout : Payout} {account : LedgerAccount} (h : Seen s payout account)
    (hk : Keeps s s') : Seen s' payout account := by
  obtain ⟨p, hp, hob⟩ := h.owed
  obtain ⟨p', hp', hob'⟩ := mem_map_of_prefix hk.payouts hp
  exact ⟨⟨p', hp', hob'.trans hob⟩, hk.ledgerAccounts.subset h.account_mem, h.account_id⟩

/-- What a conditional update with entries does: nothing, if it finds no row; or it updates the
row and posts. -/
lemma claimAndPost_ok {guard : Payout → Bool} {update : Payout → Payout} {origin : Origin}
    {transactionId : Uuid} {entries : List LedgerEntrySpec} {b : Bool} {n : ℕ}
    (h : claimAndPost guard update origin transactionId entries w (s, 0) = .ok (b, s', n)) :
    s' = s ∧ (∀ row ∈ s.payouts.rows, guard row = false) ∨
    ∃ row ∈ s.payouts.rows, guard row = true ∧ ∃ payouts' accounts' es,
      s.payouts.update guard update = some payouts' ∧
      s.ledgerAccounts.rows <+: accounts'.rows ∧
      s' = { s with
        ledgerAccounts := accounts', payouts := payouts'
        postings := s.postings ++ [⟨origin, transactionId, es⟩] } ∧
      List.Forall₂ (Writes s' transactionId) entries es := by
  simp only [claimAndPost, Tx.bind_ok] at h
  obtain ⟨count, σ₁, hclaim, h⟩ := h
  split at h
  · rename_i hzero
    subst hzero
    simp only [Tx.pure_ok] at h
    have hnone := (Model.updateMany_ok hclaim).1
    rw [eq_comm, List.countP_eq_zero] at hnone
    rw [Model.updateMany_zero hclaim] at h
    exact .inl ⟨(congrArg Prod.fst h.2).symm, fun row hrow => by simpa using hnone row hrow⟩
  · rename_i hcount
    obtain ⟨row, hrow, hguard⟩ := Model.updateMany_pos hclaim hcount
    obtain ⟨-, payouts', hupd, rfl⟩ := Model.updateMany_ok hclaim
    simp only [Tx.bind_ok, Tx.pure_ok] at h
    obtain ⟨⟨⟩, σ₂, hpost, -, rfl⟩ := h
    obtain ⟨-, db, es, ⟨accounts', hdb, hpre⟩, hwritten, h₂⟩ := post_ok hpost
    refine .inr ⟨row, hrow, hguard, payouts', accounts', es, hupd, hpre, ?_, ?_⟩
    · rw [show s' = _ from h₂, hdb]; rfl
    · refine hwritten.imp fun _ _ h => h.mono ?_
      rw [show s' = _ from h₂]

/-- A delivery or a return: the guarded row is the one the run read. -/
theorem claimAndPost_change (back : Bool) {guard : Payout → Bool} {update : Payout → Payout}
    {payout : Payout} {account : LedgerAccount} {entries : List LedgerEntrySpec} {b : Bool}
    {n : ℕ} (h : claimAndPost guard update (movedOrigin back) payout.transactionId entries w
      (s, 0) = .ok (b, s', n)) (hseen : Seen s payout account)
    (hpay : isPayable account.type = true)
    (hentries : entries = movedEntries back (payoutForPosting payout account))
    (hnamed : Table.Names guard (.id payout.id))
    (hstatus : ∀ p, guard p = true → (p.status = .SUCCESS ↔ back = true))
    (hstatus' : ∀ p, (update p).status = .SUCCESS ↔ back = false)
    (hkeeps : ∀ p, obligation (update p) = obligation p) : Change s s' := by
  rcases claimAndPost_ok h with ⟨rfl, -⟩ |
    ⟨row, hrow, hguard, payouts', accounts', es, hupd, hpre, hafter, hwritten⟩
  · exact .same
  obtain ⟨p, hp, hob⟩ := hseen.owed
  simp only [obligation, Obligation.mk.injEq] at hob
  obtain ⟨hpid, hpacc, hptx, hpamount⟩ := hob
  obtain rfl : row = p :=
    Table.eq_of_key (k := .id payout.id) hrow hp (hnamed row hguard) (by simp [Indexed.keys, hpid])
  have hposting : payoutForPosting row account = payoutForPosting payout account := by
    simp [payoutForPosting, hpamount]
  refine .moved back
    { payout := row, account, entries := es, payout_mem := hrow, account_mem := hseen.account_mem
      account_id := hseen.account_id.trans hpacc.symm, payable := hpay, guard, update
      named := by rw [hpid]; exact hnamed
      guarded := hguard, status := hstatus row hguard, status' := hstatus' row, keeps := hkeeps
      payouts', updated := hupd, accounts', accounts_prefix := hpre, after := ?_, written := ?_ }
  · rw [hptx]; exact hafter
  · rw [hposting, ← hentries, hptx]; exact hwritten

/-! ### Programs -/

/-- Nobody rewrites what is owed, and every statement makes a change. -/
abbrev books (C : Site → Db → Prop) (L : Type) : Monitor App L := relyGuarantee Keeps Change C L

/-- The program keeps to the books, started where the store was last seen as `g`. -/
def Sound (C : Site → Db → Prop) (L : Type) {α : Type} (p : Prog App α) (g : Db) : Prop :=
  Obeys (books C L) (fun _ _ => True) p g

section Rules

variable {α β : Type} {C : Site → Db → Prop} {L : Type} {g : Db} {site : Site}

lemma sound_ret {a : α} : Sound C L (.ret a) g := trivial

lemma sound_raise {e : Err} : Sound C L (.raise e : Prog App α) g := trivial

lemma sound_query {f : Db → α} {k : α → Prog App β} (h : ∀ s, Keeps g s → Sound C L (k (f s)) s) :
    Sound C L (query site f >>= k) g :=
  obeys_bind.mpr <| obeys_query (fun _ s hr => ⟨⟨.refl s, .same⟩, h s hr.1⟩) fun _ _ => trivial

lemma sound_statement {m : Tx α} {k : α → Prog App β}
    (h : ∀ w s a s', Keeps g s → C site s → m.run w s = .ok (a, s') →
      Change s s' ∧ Sound C L (k a) s') : Sound C L (statement site m >>= k) g := by
  refine obeys_bind.mpr <| obeys_command (fun w s a s' hr hm => ?_)
    (fun w s e _ _ => ⟨.refl s, .same⟩) fun _ _ => trivial
  obtain ⟨hc, hk⟩ := h w s a s' hr.1 hr.2 hm
  exact ⟨⟨hc.keeps, hc⟩, hk⟩

lemma sound_request {q : Ask} {k : Ans q → Prog App β} (h : ∀ a, Sound C L (k a) g) :
    Sound C L (request q >>= k) g :=
  obeys_bind.mpr <| obeys_request trivial fun a => by
    rcases a with e | a
    · trivial
    · exact h a

/-- What a sub-program leaves behind does not matter to the rest. -/
lemma sound_bind {p : Prog App α} {k : α → Prog App β} (hp : Sound C L p g)
    (hk : ∀ a g, Sound C L (k a) g) : Sound C L (p >>= k) g := by
  refine obeys_bind.mpr (Obeys.mono hp fun g r _ => ?_)
  rcases r with e | a
  · trivial
  · exact hk a g

lemma sound_statement_last {m : Tx α} (h : ∀ w s a s', Keeps g s → C site s →
    m.run w s = .ok (a, s') → Change s s') : Sound C L (statement site m) g :=
  obeys_command (fun w s a s' hr hm => ⟨⟨(h w s a s' hr.1 hr.2 hm).keeps, h w s a s' hr.1 hr.2 hm⟩,
    trivial⟩) (fun _ s _ _ _ => ⟨.refl s, .same⟩) fun _ _ => trivial

lemma sound_request_last {q : Ask} : Sound C L (request q) g :=
  obeys_request trivial fun _ => trivial

lemma sound_attempt {p : Prog App α} (hp : Sound C L p g) : Sound C L p.attempt g :=
  obeys_attempt.mpr hp

lemma sound_ofExcept {r : Except Err α} {k : α → Prog App β}
    (h : ∀ a, r = .ok a → Sound C L (k a) g) : Sound C L (.ofExcept r >>= k) g := by
  rcases r with e | a
  · trivial
  · exact h a rfl

end Rules

/-! ### The settlement service -/

section Programs

variable {C : Site → Db → Prop} {L : Type} {g : Db}

lemma findUniqueOrThrow_ok {α : Type} [Indexed α Key] {M : Model α} {p : α → Bool} {r : α}
    (h : (M.findUniqueOrThrow p).run w s = .ok (r, s')) : (M.get s).find p = some r ∧ s' = s := by
  obtain ⟨n, h⟩ := Tx.run_ok.mp h
  obtain ⟨hr, heq⟩ := Model.findUniqueOrThrow_ok h
  exact ⟨hr, congrArg Prod.fst heq⟩

lemma transition_sound {id : Uuid} {source : List PaymentStatus} {target : PaymentStatus}
    (hsource : ∀ x ∈ source, x ≠ .SUCCESS) (htarget : target ≠ .SUCCESS) :
    Sound C L (transition id source target) g := by
  refine sound_statement_last fun w s a s' _ _ hm => ?_
  obtain ⟨n, h⟩ := Tx.run_ok.mp hm
  simp only [Tx.bind_ok, Tx.now_ok, Tx.pure_ok] at h
  obtain ⟨_, _, ⟨rfl, rfl⟩, c, σ₁, hupd, -, rfl⟩ := h
  obtain ⟨-, t, ht, h₁⟩ := Model.updateMany_ok hupd
  obtain rfl : s' = { s with payments := t } := congrArg Prod.fst h₁
  refine .payments _ _ t ht (fun _ => rfl) (fun p _ hp => ?_) fun _ => htarget
  simp only [Bool.and_eq_true, List.contains_iff_mem] at hp
  exact hsource _ hp.2

lemma reload_sound {id : Uuid} : Sound C L (reload id) g :=
  sound_statement_last fun _ _ _ _ _ _ hm => by
    rw [(findUniqueOrThrow_ok hm).2]; exact .same

lemma enqueuePayouts_sound {ids : List Uuid} : Sound C L (enqueuePayouts ids) g := by
  induction ids generalizing g with
  | nil => exact sound_ret
  | cons id ids ih => exact sound_bind (sound_attempt sound_request_last) fun _ _ => ih

lemma some_reload_sound {id : Uuid} : Sound C L (some <$> reload id) g :=
  sound_bind reload_sound fun _ _ => sound_ret

lemma settleVerified_sound {reference : String} {payment : PaymentTransaction}
    (hp : ∃ p ∈ g.payments.rows, quoted p = quoted payment) :
    Sound C L (settleVerified reference payment) g := by
  unfold settleVerified
  split
  · exact sound_raise
  rename_i ruleId hsnap
  refine sound_statement fun w s rule s' hg _ hm => ?_
  obtain ⟨hfind, rfl⟩ := findUniqueOrThrow_ok hm
  refine ⟨.same, sound_ofExcept fun specs hspecs => ?_⟩
  refine sound_statement fun w s₂ o s₃ hg₂ _ hm₂ => ?_
  have hid : rule.id = ruleId := by simpa using Table.of_find hfind
  have hrule := mem_map_of_prefix hg₂.splitRules (Table.mem_of_find hfind)
  refine ⟨settleTransaction_change (exists_quoted (hg.trans hg₂) hp) hrule
    (hsnap.trans (congrArg some hid.symm)) hspecs hm₂, ?_⟩
  rcases o with _ | ids
  · exact some_reload_sound
  · exact sound_bind enqueuePayouts_sound fun _ _ => some_reload_sound

theorem settle_sound {reference : String} : Sound C L (settle reference) g := by
  refine sound_query fun s _ => ?_
  rcases hfind : s.payments.find (·.externalReference == reference) with _ | payment
  · exact sound_ret
  simp only
  split
  · exact sound_ret
  refine sound_request fun verification => ?_
  have hp : ∃ p ∈ s.payments.rows, quoted p = quoted payment :=
    ⟨payment, Table.mem_of_find hfind, rfl⟩
  cases verification.status with
  | failed =>
    exact sound_bind (transition_sound (by decide) (by decide)) fun _ _ => some_reload_sound
  | abandoned | pending =>
    exact sound_bind (transition_sound (by decide) (by decide)) fun _ _ => some_reload_sound
  | success =>
    simp only
    split
    · exact sound_raise
    · exact settleVerified_sound hp

/-! ### The payout service -/

/-- An update of payouts that leaves alone what is owed and who is `SUCCESS`. -/
lemma updatePayouts_change {guard : Payout → Bool} {update : Payout → Payout} {n : ℕ}
    (h : Model.payout.updateMany guard update w σ = .ok (n, σ'))
    (hkeeps : ∀ p, obligation (update p) = obligation p)
    (hstatus : ∀ p, guard p = true → ((update p).status = .SUCCESS ↔ p.status = .SUCCESS)) :
    Change σ.1 σ'.1 := by
  obtain ⟨-, t, ht, rfl⟩ := Model.updateMany_ok h
  exact .payouts guard update t ht hkeeps hstatus

lemma updatePayout_change {guard : Payout → Bool} {update : Payout → Payout} {u : Unit}
    (h : Model.payout.update guard update w σ = .ok (u, σ'))
    (hkeeps : ∀ p, obligation (update p) = obligation p)
    (hstatus : ∀ p, guard p = true → ((update p).status = .SUCCESS ↔ p.status = .SUCCESS)) :
    Change σ.1 σ'.1 := by
  obtain ⟨t, ht, rfl⟩ := Model.update_ok h
  exact .payouts guard update t ht hkeeps hstatus

lemma payoutWithAccount_seen {p : Payout → Bool} {payout : Payout} {account : LedgerAccount}
    (h : payoutWithAccount p s = some (payout, account)) :
    Seen s payout account ∧ p payout = true := by
  simp only [payoutWithAccount, Option.bind_eq_bind, Option.bind_eq_some_iff, Option.pure_def,
    Option.some.injEq, Prod.mk.injEq] at h
  obtain ⟨p', hp', a, ha, rfl, rfl⟩ := h
  have hid := Table.of_find ha
  exact ⟨⟨⟨_, Table.mem_of_find hp', rfl⟩, Table.mem_of_find ha, beq_iff_eq.mp hid⟩,
    Table.of_find hp'⟩

lemma names_id {id : Uuid} {guard : Payout → Bool} (h : ∀ p, guard p = true → p.id = id) :
    Table.Names guard (.id id) :=
  fun p hp => by simp [Indexed.keys, h p hp]

theorem markSucceeded_sound {payoutId : Uuid} {reference : String} :
    Sound C L (markSucceeded payoutId reference) g := by
  refine sound_query fun s _ => ?_
  rcases hfind : payoutWithAccount (·.id == payoutId) s with _ | ⟨payout, account⟩
  · exact sound_raise
  obtain ⟨hseen, hid⟩ := payoutWithAccount_seen hfind
  obtain rfl : payout.id = payoutId := by simpa using hid
  refine sound_ofExcept fun entries hentries => ?_
  obtain ⟨hpay, -, -, rfl⟩ := computePayoutEntries_ok.mp hentries
  refine sound_statement fun w s₂ b s₃ hg _ hm => ⟨?_, sound_ret⟩
  obtain ⟨n, hm⟩ := Tx.run_ok.mp hm
  simp only [markSucceededTransaction, Tx.bind_ok, Tx.now_ok] at hm
  obtain ⟨_, _, ⟨rfl, rfl⟩, hm⟩ := hm
  refine claimAndPost_change false hm (hseen.keeps hg) hpay rfl (names_id fun p hp => ?_)
    (fun p hp => ?_) (fun _ => by simp) fun _ => rfl
  · simp only [Bool.and_eq_true, beq_iff_eq] at hp; exact hp.1.1
  · simp only [Bool.and_eq_true, bne_iff_ne] at hp; simpa using hp.2

lemma markForReview_sound {payoutId : Uuid} {reason : String} :
    Sound C L (markForReview payoutId reason) g := by
  refine sound_statement_last fun w s a s' _ _ hm => ?_
  obtain ⟨n, h⟩ := Tx.run_ok.mp hm
  simp only [Tx.bind_ok, Tx.now_ok, Tx.pure_ok] at h
  obtain ⟨_, _, ⟨rfl, rfl⟩, c, σ₁, hupd, -, rfl⟩ := h
  refine updatePayouts_change hupd (fun _ => rfl) fun p hp => ?_
  simp only [Bool.and_eq_true, bne_iff_ne] at hp; simp [hp.2]

lemma flagForOperator_sound {payoutId : Uuid} : Sound C L (flagForOperator payoutId) g := by
  refine sound_statement_last fun w s a s' _ _ hm => ?_
  obtain ⟨n, h⟩ := Tx.run_ok.mp hm
  simp only [Tx.bind_ok, Tx.now_ok] at h
  obtain ⟨_, _, ⟨rfl, rfl⟩, hupd⟩ := h
  exact updatePayout_change hupd (fun _ => rfl) fun _ _ => Iff.rfl

lemma saveRecipient_sound {payoutId : Uuid} {code : String} :
    Sound C L (saveRecipient payoutId code) g := by
  refine sound_statement_last fun w s a s' _ _ hm => ?_
  obtain ⟨n, h⟩ := Tx.run_ok.mp hm
  simp only [Tx.bind_ok, Tx.now_ok] at h
  obtain ⟨_, _, ⟨rfl, rfl⟩, hupd⟩ := h
  exact updatePayout_change hupd (fun _ => rfl) fun _ _ => Iff.rfl

lemma retrying_sound {payoutId : Uuid} {reference : String} {outcome : TransferOutcome}
    {reason : Option String} : Sound C L (retrying payoutId reference outcome reason) g := by
  refine sound_statement_last fun w s a s' _ _ hm => ?_
  obtain ⟨n, h⟩ := Tx.run_ok.mp hm
  simp only [Tx.bind_ok, Tx.now_ok, Tx.pure_ok] at h
  obtain ⟨_, _, ⟨rfl, rfl⟩, c, σ₁, hupd, -, rfl⟩ := h
  refine updatePayouts_change hupd (fun _ => rfl) fun p hp => ?_
  simp only [Bool.and_eq_true, bne_iff_ne] at hp; simp [hp.2]

lemma enqueue_sound {payoutId : Uuid} {delay : ℕ} : Sound C L (enqueue payoutId delay) g :=
  sound_request_last

lemma retryOrReview_sound {payout : Payout} {outcome : TransferOutcome} {reason : Option String} :
    Sound C L (retryOrReview payout outcome reason) g := by
  unfold retryOrReview
  split
  · exact markForReview_sound
  · exact enqueue_sound

theorem handleTransferEvent_sound {reference : String} {outcome : TransferOutcome}
    {reason : Option String} : Sound C L (handleTransferEvent reference outcome reason) g := by
  refine sound_query fun s _ => ?_
  rcases hfind : payoutWithAccount (·.transferReference == some reference) s
    with _ | ⟨payout, account⟩
  · exact sound_ret
  obtain ⟨hseen, -⟩ := payoutWithAccount_seen hfind
  simp only
  split
  · exact markSucceeded_sound
  split
  · refine sound_ofExcept fun entries hentries => ?_
    obtain ⟨hpay, -, -, rfl⟩ := computePayoutReversalEntries_ok.mp hentries
    refine sound_statement fun w s₂ b s₃ hg _ hm => ⟨?_, ?_⟩
    · obtain ⟨n, hm⟩ := Tx.run_ok.mp hm
      simp only [reversedTransaction, Tx.bind_ok, Tx.now_ok] at hm
      obtain ⟨_, _, ⟨rfl, rfl⟩, hm⟩ := hm
      refine claimAndPost_change true hm (hseen.keeps hg) hpay rfl (names_id fun p hp => ?_)
        (fun p hp => ?_) (fun _ => by simp) fun _ => rfl
      · simp only [Bool.and_eq_true, beq_iff_eq] at hp; exact hp.1.1
      · simp only [Bool.and_eq_true, beq_iff_eq] at hp; simpa using hp.1.2
    · split
      · exact retryOrReview_sound
      · exact sound_ret
  split
  · exact sound_bind retrying_sound fun _ _ => retryOrReview_sound
  · exact sound_ret

lemma hold_sound {payout : Payout} (hopen : OPEN_STATUSES.contains payout.status = true) :
    Sound C L (hold payout) g := by
  unfold hold
  split
  · refine sound_statement_last fun w s a s' _ _ hm => ?_
    obtain ⟨n, h⟩ := Tx.run_ok.mp hm
    simp only [Tx.bind_ok, Tx.now_ok, Tx.pure_ok] at h
    obtain ⟨_, _, ⟨rfl, rfl⟩, c, σ₁, hupd, -, rfl⟩ := h
    refine updatePayouts_change hupd (fun _ => rfl) fun p hp => ?_
    simp only [Bool.and_eq_true, beq_iff_eq] at hp
    rw [hp.2]
    constructor
    · intro h; cases h
    · intro h; rw [h] at hopen; cases hopen
  · exact sound_ret

lemma claimAttempt_change {payout : Payout} {n : ℕ}
    (h : (Model.payout.updateMany
      (fun p => p.id == payout.id && OPEN_STATUSES.contains p.status &&
        p.attempts == payout.attempts)
      (fun p => { p with
        status := .PROCESSING, attempts := payout.attempts + 1
        transferReference := some (transferReference payout.id (payout.attempts + 1))
        attemptedAt := some w.now, failureReason := none, updatedAt := w.now }) w σ)
      = .ok (n, σ')) : Change σ.1 σ'.1 := by
  refine updatePayouts_change h (fun _ => rfl) fun p hp => ?_
  simp only [Bool.and_eq_true] at hp
  constructor
  · intro h; cases h
  · intro h; rw [h] at hp; exact absurd hp.1.2 (by decide)

lemma transferAnswered_sound {payout : Payout} {reference : String} {transfer : Transfer} :
    Sound C L (transferAnswered payout reference transfer) g := by
  unfold transferAnswered
  split
  · exact markSucceeded_sound
  · exact handleTransferEvent_sound
  · exact handleTransferEvent_sound
  · exact flagForOperator_sound
  · exact sound_ret

lemma resolveDestination_sound {account : LedgerAccount} :
    Sound C L (resolveDestination account) g := by
  unfold resolveDestination
  split
  · exact sound_ret
  · exact sound_query fun _ _ => sound_ret
  · exact sound_query fun _ _ => sound_ret
  · exact sound_ret

lemma newAttempt_sound {payout : Payout} {account : LedgerAccount}
    (hopen : OPEN_STATUSES.contains payout.status = true) :
    Sound C L (newAttempt payout account) g := by
  refine sound_bind resolveDestination_sound fun destination g => ?_
  cases destination with
  | review reason => exact markForReview_sound
  | hold reason => exact hold_sound hopen
  | send name bankCode accountNumber reason =>
    refine sound_statement fun w s n s' _ _ hm => ⟨?_, ?_⟩
    · obtain ⟨m, h⟩ := Tx.run_ok.mp hm
      simp only [Tx.bind_ok, Tx.now_ok] at h
      obtain ⟨_, _, ⟨rfl, rfl⟩, h⟩ := h
      exact claimAttempt_change h
    · split
      · exact sound_ret
      · refine sound_request fun code => sound_bind saveRecipient_sound fun _ _ => ?_
        exact sound_request fun transfer => transferAnswered_sound

theorem processPayout_sound {payoutId : Uuid} : Sound C L (processPayout payoutId) g := by
  refine sound_query fun s _ => ?_
  rcases payoutWithAccount (·.id == payoutId) s with _ | ⟨payout, account⟩
  · exact sound_ret
  simp only
  split
  · exact sound_ret
  rename_i hopen
  replace hopen : OPEN_STATUSES.contains payout.status = true := by simpa using hopen
  split
  · exact newAttempt_sound hopen
  refine sound_request fun previous => ?_
  cases previous with
  | success => exact markSucceeded_sound
  | pending => exact sound_ret
  | requires_action => exact flagForOperator_sound
  | failed | reversed | not_found => exact newAttempt_sound hopen

theorem retryPayout_sound {payoutId : Uuid} : Sound C L (retryPayout payoutId) g := by
  refine sound_statement fun w s n s' _ _ hm => ⟨?_, ?_⟩
  · obtain ⟨m, h⟩ := Tx.run_ok.mp hm
    simp only [Tx.bind_ok, Tx.now_ok] at h
    obtain ⟨_, _, ⟨rfl, rfl⟩, h⟩ := h
    refine updatePayouts_change h (fun _ => rfl) fun p hp => ?_
    simp only [Bool.and_eq_true, beq_iff_eq] at hp
    simp [hp.2]
  · split
    · refine sound_query fun s _ => ?_
      split <;> exact sound_raise
    · exact sound_bind enqueue_sound fun _ _ => sound_statement_last fun _ _ _ _ _ _ hm => by
        rw [(findUniqueOrThrow_ok hm).2]; exact .same

lemma enqueueAll_sound {ids : List Uuid} : Sound C L (enqueueAll ids) g := by
  induction ids generalizing g with
  | nil => exact sound_ret
  | cons id ids ih => exact sound_bind enqueue_sound fun _ _ => ih

/-- What the sweep fetches: payouts with their accounts. -/
lemma sweepCandidates_ok {candidates : List (Uuid × LedgerAccount)}
    (h : sweepCandidates.run w s = .ok (candidates, s')) : s' = s ∧ ∀ c ∈ candidates, ∃ payout ∈ s.payouts.rows,
      payout.id = c.1 ∧ s.ledgerAccounts.find (·.id == payout.ledgerAccountId) = some c.2 ∧
      isPayable c.2.type = true := by
  obtain ⟨n, h⟩ := Tx.run_ok.mp h
  simp only [sweepCandidates, Tx.bind_ok, Tx.now_ok, Tx.rank_ok, Tx.read_ok, Tx.pure_ok] at h
  obtain ⟨_, _, ⟨-, rfl⟩, _, _, ⟨-, rfl⟩, rows, _, ⟨hrows, rfl⟩, _, _, ⟨rfl, rfl⟩, rfl, heq⟩ := h
  obtain rfl : s = s' := congrArg Prod.fst heq
  refine ⟨rfl, fun c hc => ?_⟩
  obtain ⟨payout, hmem, hfetched⟩ := List.mem_filterMap.mp (List.mem_of_mem_take hc)
  obtain ⟨account, haccount, hcandidate⟩ := Option.bind_eq_some_iff.mp hfetched
  rw [← hrows, List.mem_insertionSort] at hmem
  split at hcandidate
  · rename_i hcond
    obtain rfl : (payout.id, account) = c := Option.some.inj hcandidate
    exact ⟨payout, hmem, rfl, haccount, (Bool.and_eq_true _ _ ▸ hcond).1⟩
  · cases hcandidate

theorem enqueueDuePayouts_sound : Sound C L enqueueDuePayouts g := by
  refine sound_statement fun w s candidates s' _ _ hm => ⟨?_, ?_⟩
  · rw [(sweepCandidates_ok hm).1]
    exact .same
  · exact sound_query fun _ _ => sound_query fun _ _ =>
      sound_bind enqueueAll_sound fun _ _ => sound_ret

end Programs

end Splitcore.Money
