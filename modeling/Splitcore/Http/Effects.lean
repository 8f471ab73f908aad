import Splitcore.Http.Exchanges
import Splitcore.Money.Dated
import Splitcore.QrCodes.Performing
import Splitcore.Webhooks.Watched

/-!
What the programs of the controllers make of the registry: the venues, the entertainers, what connects
them, and the rules.

Most leave it alone. Onboarding rewrites one row, and what an admin does to codes, entertainers and links
is an `Effect`.
-/

namespace Splitcore.Http

open Relational Interleaving Onboarding QrCodes

def registry (db : Db) :
    Table Venue × Table Entertainer × Table VenueEntertainer × Table QrCode × Table SplitRule :=
  (db.venues, db.entertainers, db.venueEntertainers, db.qrCodes, db.splitRules)

/-! ### Programs that leave the registry alone -/

/-- The program leaves what `f` shows alone, whatever it asks. -/
abbrev LeavesAlone {α γ : Type} (f : Db → γ) (p : Prog App α) : Prop :=
  p.Spares (fun _ => True) (fun _ => True) f

section LeavesAlone

variable {α β γ : Type} {f : Db → γ} {site : Site} {k : α → Prog App β}

lemma alone_read {g : Db → α} (hk : ∀ a, LeavesAlone f (k a)) : LeavesAlone f (query site g >>= k) :=
  Prog.spares_bind (Prog.spares_query trivial) hk

lemma alone_stmt {m : Tx α} (hm : m.Leaves f) : LeavesAlone f (statement site m) :=
  Prog.spares_command trivial fun _ _ _ _ h => hm.run h

lemma alone_stmt_bind {m : Tx α} (hm : m.Leaves f) (hk : ∀ a, LeavesAlone f (k a)) :
    LeavesAlone f (statement site m >>= k) :=
  Prog.spares_bind (alone_stmt hm) hk

lemma alone_of_books {p : Prog App α} (h : Money.SparesBeside f p) : LeavesAlone f p :=
  h.mono (fun _ _ => trivial) fun _ _ => trivial

end LeavesAlone

lemma besideRegistry : Money.BesideBooks registry := fun _ _ _ _ _ => rfl

lemma findActiveByVenue_alone {venueId : Uuid} : LeavesAlone registry (Money.findActiveByVenue venueId) := by
  refine alone_stmt_bind (fun w σ a σ' h => ?_) fun rule => ?_
  · simp only [Tx.bind_ok, Tx.rank_ok, Tx.read_ok] at h
    obtain ⟨_, _, ⟨-, rfl⟩, -, rfl⟩ := h
    rfl
  · split <;> trivial

lemma initializePayment_alone {config : Money.PaymentsConfig} {dto : Money.InitializePaymentDto} :
    LeavesAlone registry (Money.initializePayment config dto) := by
  refine alone_stmt_bind (Tx.leaves_now fun _ => Tx.leaves_bind Tx.leaves_read fun _ => Tx.leaves_pure) fun found => ?_
  rcases found with ⟨_ | session, now⟩
  · trivial
  simp only
  split
  · trivial
  refine Prog.spares_bind (Prog.spares_attempt findActiveByVenue_alone) fun splitRule => ?_
  rcases splitRule with e | splitRule
  · trivial
  refine alone_stmt_bind (Money.createPayment_leaves fun _ _ => rfl) fun payment => ?_
  refine Prog.spares_bind (Prog.spares_attempt (Prog.spares_request trivial)) fun init => ?_
  rcases init with e | init
  · exact alone_stmt_bind (Tx.leaves_now fun _ => Model.update_leaves fun _ _ => rfl) fun _ => trivial
  · trivial

lemma getPaymentStatus_alone {reference : String} : LeavesAlone registry (Money.getPaymentStatus reference) := by
  refine alone_read fun existing => ?_
  rcases existing with _ | status
  · trivial
  refine Prog.spares_bind ?_ fun _ => alone_read fun found => ?_
  · unfold Money.settleIfOpen
    split
    · exact Prog.spares_bind (Prog.spares_attempt (alone_of_books (Money.settle_spares besideRegistry)))
        fun _ => trivial
    · trivial
  · rcases found with _ | ⟨payment, venue, entertainer⟩ <;> trivial

lemma callbackPayment_alone {reference : String} : LeavesAlone registry (callbackPayment reference) := by
  refine Prog.spares_bind (Prog.spares_attempt getPaymentStatus_alone) fun result => ?_
  split <;> trivial

lemma setStatus_leaves {id : Uuid} {status : ProcessingStatus} : (Webhooks.setStatus id status).Leaves registry :=
  Model.update_leaves fun _ _ => rfl

lemma handle_alone {webhookEventId : Uuid} : LeavesAlone registry (Webhooks.handle webhookEventId) := by
  refine alone_read fun found => ?_
  rcases found with _ | event
  · trivial
  simp only
  split
  · trivial
  refine alone_stmt_bind setStatus_leaves fun _ => ?_
  refine Prog.spares_bind (Prog.spares_attempt (alone_of_books (Webhooks.process_spares besideRegistry)))
    fun result => ?_
  split
  · exact alone_stmt setStatus_leaves
  · exact alone_stmt_bind setStatus_leaves fun _ => trivial
  · exact alone_stmt (Tx.leaves_now fun _ => Model.update_leaves fun _ _ => rfl)

lemma enqueue_alone {queueEnabled : Bool} {webhookEventId : Uuid} :
    LeavesAlone registry (Webhooks.enqueue queueEnabled webhookEventId) := by
  unfold Webhooks.enqueue
  split
  · exact handle_alone
  · refine alone_stmt (Tx.leaves_bind Tx.leaves_read fun existing => ?_)
    split
    · exact Tx.leaves_pure
    · exact Model.create_leaves fun _ _ => rfl

lemma ingest_alone {provider : Webhooks.WebhookProvider} {queueEnabled : Bool} {d : Webhooks.Delivery} :
    LeavesAlone registry (Webhooks.ingest provider queueEnabled d) := by
  unfold Webhooks.ingest
  split
  · trivial
  split
  · refine Prog.spares_bind (Prog.spares_attempt (alone_stmt ?_)) fun created => ?_
    · refine Tx.leaves_bind Tx.leaves_freshId fun id => Tx.leaves_now fun now => ?_
      exact Tx.leaves_bind (Model.create_leaves fun _ _ => rfl) fun _ => Tx.leaves_pure
    · split
      · exact Prog.spares_bind enqueue_alone fun _ => trivial
      · refine alone_stmt_bind (Tx.leaves_bind Tx.leaves_read fun found => ?_) fun existing => ?_
        · split
          · exact Tx.leaves_pure
          · exact Tx.leaves_throw
        · split
          · trivial
          · exact Prog.spares_bind enqueue_alone fun _ => trivial
      · trivial
  · trivial

lemma issueLoginLink_alone {hashToken : String → String} {urls : EntertainerAuth.Config} {entertainerId : Uuid} :
    LeavesAlone registry (EntertainerAuth.issueLoginLink hashToken urls entertainerId) := by
  refine alone_read fun found => ?_
  rcases found with _ | entertainer
  · trivial
  simp only
  split
  · trivial
  refine alone_stmt_bind (Tx.leaves_bind Tx.leaves_randomBytes fun _ => Tx.leaves_now fun _ => Tx.leaves_pure)
    fun drawn => ?_
  refine alone_stmt_bind (Tx.leaves_now fun _ => Model.updateMany_leaves fun _ _ => rfl) fun _ => ?_
  exact alone_stmt_bind (Tx.leaves_bind Tx.leaves_freshId fun _ => Model.create_leaves fun _ _ => rfl)
    fun _ => trivial

lemma redeem_alone {hashToken : String → String} {token : String} :
    LeavesAlone registry (EntertainerAuth.redeem hashToken token) := by
  refine alone_read fun found => ?_
  rcases found with _ | ⟨candidate, entertainer⟩
  · trivial
  simp only
  split
  · trivial
  split
  · trivial
  refine alone_stmt_bind (fun w σ t σ' h => by rw [(Tx.now_ok.mp h).2]) fun now => ?_
  split
  · trivial
  split
  · trivial
  refine alone_stmt_bind (Tx.leaves_now fun _ => Model.updateMany_leaves fun _ _ => rfl) fun count => ?_
  split
  · trivial
  · exact Prog.spares_bind (Prog.spares_request trivial) fun _ => trivial

/-! ### Programs that rewrite one row -/

/-- The rows became the rows beside them: the one with the id as `R` allows, and no other was changed. -/
def Rewrites {α : Type} (key : α → Uuid) (id : Uuid) (R : α → α → Prop) (rows rows' : List α) : Prop :=
  List.Forall₂ (fun r r' => r' = r ∨ key r = id ∧ key r' = id ∧ R r r') rows rows'

section Rewrites

variable {α : Type} {key : α → Uuid} {id : Uuid} {R : α → α → Prop} {rows rows' rows'' : List α}

lemma Rewrites.refl (rows : List α) : Rewrites key id R rows rows := List.forall₂_same.mpr fun _ _ => .inl rfl

lemma Rewrites.trans (hR : ∀ a b c, R a b → R b c → R a c) (h : Rewrites key id R rows rows')
    (h' : Rewrites key id R rows' rows'') : Rewrites key id R rows rows'' := by
  unfold Rewrites at *
  induction h generalizing rows'' with
  | nil => cases h'; exact .nil
  | cons hab _ ih =>
    cases h' with
    | cons hbc hrest =>
      refine .cons ?_ (ih hrest)
      rcases hab with rfl | ⟨ha, hb, hab⟩
      · exact hbc
      · rcases hbc with rfl | ⟨-, hc, hbc⟩
        · exact .inr ⟨ha, hb, hab⟩
        · exact .inr ⟨ha, hc, hR _ _ _ hab hbc⟩

lemma rewrites_update [Indexed α Key] {t t' : Table α} {f : α → α} (hkey : ∀ r, key (f r) = key r)
    (hf : ∀ r, R r (f r)) (h : t.update (key · == id) f = some t') : Rewrites key id R t.rows t'.rows := by
  unfold Rewrites
  rw [Table.rows_update h, List.forall₂_map_right_iff, List.forall₂_same]
  intro r _
  split
  · rename_i hid
    exact .inr ⟨eq_of_beq hid, (hkey r).trans (eq_of_beq hid), hf r⟩
  · exact .inl rfl

end Rewrites

/-- An entertainer's account is as confirmed as it was, or not confirmed. -/
def ConfirmsNothing (e e' : Entertainer) : Prop :=
  e'.accountConfirmedAt = none ∨ e'.accountConfirmedAt = e.accountConfirmedAt

lemma ConfirmsNothing.trans (a b c : Entertainer) (h : ConfirmsNothing a b) (h' : ConfirmsNothing b c) :
    ConfirmsNothing a c := by
  rcases h' with hnone | hsame
  · exact .inl hnone
  · unfold ConfirmsNothing
    rw [hsame]
    exact h

/-- Of the database, at most the row with the id was rewritten. -/
def WritesRow {α : Type} [Indexed α Key] (M : Model α) (key : α → Uuid) (id : Uuid) (R : α → α → Prop)
    (db db' : Db) : Prop :=
  ∃ t, Rewrites key id R (M.get db).rows t.rows ∧ db' = M.set db t

section WritesRow

variable {α β : Type} [Indexed α Key] {M : Model α} {key : α → Uuid} {id : Uuid} {R : α → α → Prop} {site : Site}
  {check : α → Bool}

lemma WritesRow.refl (db : Db) : WritesRow M key id R db db := ⟨M.get db, .refl _, (M.set_get db).symm⟩

lemma WritesRow.trans (hset : ∀ db t t', M.set (M.set db t) t' = M.set db t') (hR : ∀ a b c, R a b → R b c → R a c)
    (a b c : Db) (h : WritesRow M key id R a b) (h' : WritesRow M key id R b c) : WritesRow M key id R a c := by
  obtain ⟨t, hrows, rfl⟩ := h
  obtain ⟨t', hrows', rfl⟩ := h'
  rw [M.get_set] at hrows'
  exact ⟨t', hrows.trans hR hrows', hset a t t'⟩

lemma updateOne_writes {f : α → α} {w : Input} {r : α} {db db' : Db} (hkey : ∀ r, key (f r) = key r)
    (hf : ∀ r, R r (f r)) (h : (M.updateOne check (key · == id) f).run w db = .ok (r, db')) :
    WritesRow M key id R db db' := by
  obtain ⟨n, hn⟩ := Tx.run_ok.mp h
  obtain ⟨t, ht, hs, -, -⟩ := Model.updateOne_ok hn
  exact ⟨t, rewrites_update hkey hf ht, congrArg Prod.fst hs⟩

lemma written {f : α → α} (hkey : ∀ r, key (f r) = key r) (hf : ∀ r, R r (f r)) :
    (statement site (M.updateOne check (key · == id) f)).Each fun _ => WritesRow M key id R :=
  Prog.each_command WritesRow.refl fun _ _ _ _ h => updateOne_writes hkey hf h

lemma written_now {f : Time → α → α} (hkey : ∀ t r, key (f t r) = key r) (hf : ∀ t r, R r (f t r)) :
    (statement site do
      let now ← Tx.now
      M.updateOne check (key · == id) (f now)).Each fun _ => WritesRow M key id R :=
  Prog.each_command WritesRow.refl fun w _ _ _ h => updateOne_writes (hkey w.now) (hf w.now) h

end WritesRow

/-- At most the entertainer was rewritten. -/
abbrev WritesEntertainer (id : Uuid) (R : Entertainer → Entertainer → Prop) : Db → Db → Prop :=
  WritesRow Model.entertainer Entertainer.id id R

/-- At most the venue was rewritten. -/
abbrev WritesVenue (id : Uuid) : Db → Db → Prop := WritesRow Model.venue Venue.id id fun _ _ => True

section Onboarding

variable {toUpperCase : String → String} {id : Uuid} {R : Entertainer → Entertainer → Prop} {β : Type}

/-- A step of onboarding finds the entertainer and goes on. -/
lemma found_writes {k : Entertainer → Prog App β} (hk : ∀ e, (k e).Each fun _ => WritesEntertainer id R) :
    (find id >>= k).Each fun _ => WritesEntertainer id R := by
  refine Prog.each_bind (Prog.each_bind (Prog.each_query WritesRow.refl) fun found => ?_) hk
  cases found <;> trivial

lemma notSuspended_writes {e : Entertainer} {k : Unit → Prog App β}
    (hk : (k ()).Each fun _ => WritesEntertainer id R) :
    (assertNotSuspended e >>= k).Each fun _ => WritesEntertainer id R := by
  refine Prog.each_bind ?_ fun _ => hk
  unfold assertNotSuspended
  split <;> trivial

/-! What each step may make of the entertainer -/

lemma submitBankDetails_rewrites {input : BankDetails}
    (hR : ∀ bank accountNumber changed t e, R e (bankDetailsCaptured bank accountNumber changed t e)) :
    (submitBankDetails toUpperCase id input).Each fun _ => WritesEntertainer id R := by
  refine found_writes fun e => notSuspended_writes ?_
  refine Prog.each_bind Prog.each_request fun banks => Prog.each_bind Prog.each_ofExcept fun bank => ?_
  refine Prog.each_bind (written_now (fun t e => ?_) fun t e => hR _ _ _ t e) fun _ => trivial
  unfold bankDetailsCaptured
  split <;> rfl

lemma resolveAccount_rewrites (hR : ∀ accountName t e, R e (accountResolved accountName t e))
    (hfailed : ∀ message e, R e { e with kycStatus := .FAILED, kycFailureReason := some message }) :
    (resolveAccount id).Each fun _ => WritesEntertainer id R := by
  refine found_writes fun e => notSuspended_writes ?_
  split
  · refine Prog.each_bind (Prog.each_attempt (Prog.each_bind Prog.each_request fun account =>
      written_now (fun _ _ => rfl) fun t e => hR _ t e)) fun result => ?_
    split
    · trivial
    · exact Prog.each_bind (written (fun _ => rfl) fun e => hfailed _ e) fun _ => trivial
    · trivial
  · trivial

lemma confirmAccount_rewrites {name : String} (hR : ∀ (t : Time) e, R e { e with
      accountConfirmedAt := some t, kycStatus := .PENDING, kycFailureReason := none }) :
    (confirmAccount toUpperCase id name).Each fun _ => WritesEntertainer id R := by
  refine found_writes fun e => notSuspended_writes ?_
  split
  · trivial
  split
  · trivial
  · exact Prog.each_bind (written_now (fun _ _ => rfl) hR) fun _ => trivial

lemma verifyIdentity_rewrites {documentType : IdentityDocumentType} {documentNumber : String}
    (hR : ∀ documentType result t e, R e (identityChecked documentType result t e)) :
    (verifyIdentity id documentType documentNumber).Each fun _ => WritesEntertainer id R := by
  refine found_writes fun e => notSuspended_writes ?_
  split
  · trivial
  split
  · trivial
  refine Prog.each_bind Prog.each_request fun result => ?_
  exact Prog.each_bind (written_now (fun _ _ => identityChecked_same.1) fun t e => hR _ _ t e) fun _ => trivial

lemma decideReview_rewrites {decision : ReviewDecision} {reason : String}
    (hR : ∀ decision reason t e, R e (reviewDecided decision reason t e)) :
    (decideReview id decision reason).Each fun _ => WritesEntertainer id R := by
  refine found_writes fun e => ?_
  split
  · trivial
  split
  · trivial
  exact Prog.each_bind (written_now (fun _ _ => reviewDecided_same.1) fun t e => hR _ _ t e) fun _ => trivial

/-! Only one of them confirms anything -/

lemma submitBankDetails_writes {input : BankDetails} :
    (submitBankDetails toUpperCase id input).Each fun _ => WritesEntertainer id ConfirmsNothing :=
  submitBankDetails_rewrites fun bank accountNumber changed t e => by
    unfold bankDetailsCaptured
    split
    · exact .inl rfl
    · exact .inr rfl

lemma resolveAccount_writes : (resolveAccount id).Each fun _ => WritesEntertainer id ConfirmsNothing :=
  resolveAccount_rewrites (fun _ _ _ => .inl rfl) fun _ _ => .inr rfl

lemma confirmAccount_writes {name : String} :
    (confirmAccount toUpperCase id name).Each fun _ => WritesEntertainer id fun _ _ => True :=
  confirmAccount_rewrites fun _ _ => trivial

lemma verifyIdentity_writes {documentType : IdentityDocumentType} {documentNumber : String} :
    (verifyIdentity id documentType documentNumber).Each fun _ => WritesEntertainer id ConfirmsNothing :=
  verifyIdentity_rewrites fun _ _ _ _ => by unfold identityChecked; split <;> exact .inr rfl

lemma decideReview_writes {decision : ReviewDecision} {reason : String} :
    (decideReview id decision reason).Each fun _ => WritesEntertainer id ConfirmsNothing :=
  decideReview_rewrites fun decision _ _ _ => by cases decision <;> exact .inr rfl

/-! A venue's own account -/

lemma foundVenue_writes {k : Venue → Prog App β} (hk : ∀ v, (k v).Each fun _ => WritesVenue id) :
    (VenueAccount.find id >>= k).Each fun _ => WritesVenue id := by
  refine Prog.each_bind (Prog.each_bind (Prog.each_query WritesRow.refl) fun found => ?_) hk
  cases found <;> trivial

lemma submitVenueBankDetails_writes {input : BankDetails} :
    (VenueAccount.submitBankDetails toUpperCase id input).Each fun _ => WritesVenue id := by
  refine foundVenue_writes fun _ => ?_
  refine Prog.each_bind Prog.each_request fun banks => Prog.each_bind Prog.each_ofExcept fun bank => ?_
  refine foundVenue_writes fun v => Prog.each_bind (written (fun v => ?_) fun _ => trivial) fun _ => trivial
  unfold VenueAccount.bankDetailsCaptured
  split <;> rfl

lemma resolveVenueAccount_writes : (VenueAccount.resolveAccount id).Each fun _ => WritesVenue id := by
  refine foundVenue_writes fun v => ?_
  split
  · refine Prog.each_bind (Prog.each_attempt (Prog.each_bind Prog.each_request fun account =>
      written_now (fun _ _ => rfl) fun _ _ => trivial)) fun result => ?_
    split <;> trivial
  · trivial

lemma confirmVenueAccount_writes {name : String} :
    (VenueAccount.confirmAccount toUpperCase id name).Each fun _ => WritesVenue id := by
  refine foundVenue_writes fun v => ?_
  split
  · trivial
  split
  · trivial
  · exact Prog.each_bind (written_now (fun _ _ => rfl) fun _ _ => trivial) fun _ => trivial

end Onboarding

/-! ### Calls of the admins -/

/-- The venues and their rules. -/
def venuesAndRules (db : Db) : Table Venue × Table SplitRule := (db.venues, db.splitRules)

lemma caught_alone {α β γ : Type} {f : Db → γ} {site : Site} {m : Tx α} {k : Except Err α → Prog App β}
    (hm : m.Leaves f) (hk : ∀ r, LeavesAlone f (k r)) : LeavesAlone f ((statement site m).attempt >>= k) :=
  Prog.spares_bind (Prog.spares_attempt (alone_stmt hm)) hk

/-- What an admin does to codes, entertainers and links is nothing to venues and rules. -/
lemma operation_alone (op : Operation) : LeavesAlone venuesAndRules op.program := by
  cases op with
  | createQrCode dto =>
    refine Prog.spares_bind (alone_read fun venue => ?_) fun _ => trivial
    split
    · trivial
    refine Prog.spares_bind ?_ fun _ => alone_stmt ?_
    · unfold checkEntertainer
      split
      · trivial
      refine alone_read fun entertainer => ?_
      split
      · trivial
      refine alone_read fun link => ?_
      split <;> trivial
    · refine Tx.leaves_bind (Tx.leaves_bind Tx.leaves_randomBytes fun _ => Tx.leaves_pure) fun publicToken => ?_
      refine Tx.leaves_bind Tx.leaves_freshId fun id => ?_
      exact Tx.leaves_bind (Model.create_leaves fun _ _ => rfl) fun _ => Tx.leaves_pure
  | deactivateQrCode id =>
    refine Prog.spares_bind (caught_alone (Tx.leaves_now fun now => Model.updateOne_leaves fun _ _ => rfl)
      fun r => ?_) fun _ => trivial
    split <;> trivial
  | regenerateQrCode id =>
    refine Prog.spares_bind (alone_stmt (Tx.leaves_bind Tx.leaves_read fun found => ?_)) fun _ => trivial
    split
    · exact Tx.leaves_throw
    refine Tx.leaves_now fun now => Tx.leaves_bind (Model.update_leaves fun _ _ => rfl) fun _ => ?_
    refine Tx.leaves_bind (Tx.leaves_bind Tx.leaves_randomBytes fun _ => Tx.leaves_pure) fun publicToken => ?_
    refine Tx.leaves_bind Tx.leaves_freshId fun newId => ?_
    exact Tx.leaves_bind (Model.create_leaves fun _ _ => rfl) fun _ => Tx.leaves_pure
  | createEntertainer dto =>
    refine Prog.spares_bind (caught_alone (Tx.leaves_bind Tx.leaves_freshId fun id => Tx.leaves_bind
      (Model.create_leaves fun _ _ => rfl) fun _ => Tx.leaves_pure) fun r => ?_) fun _ => trivial
    split <;> trivial
  | updateEntertainer id dto =>
    refine Prog.spares_bind (caught_alone (Tx.leaves_bind (Model.updateOne_leaves fun _ _ => rfl) fun e =>
      Tx.leaves_bind Tx.leaves_read fun venues => Tx.leaves_pure) fun r => ?_) fun _ => trivial
    split <;> trivial
  | deactivateEntertainer id =>
    refine Prog.spares_bind (caught_alone (Tx.leaves_bind (Model.updateOne_leaves fun _ _ => rfl) fun e =>
      Tx.leaves_bind Tx.leaves_read fun venues => Tx.leaves_bind (Model.updateMany_leaves fun _ _ => rfl)
        fun _ => Tx.leaves_pure) fun r => ?_) fun _ => trivial
    split <;> trivial
  | linkToVenue entertainerId venueId =>
    refine Prog.spares_bind (caught_alone (Tx.leaves_bind Tx.leaves_freshId fun id => Tx.leaves_bind
      (Model.create_leaves fun _ _ => rfl) fun _ => Tx.leaves_bind Tx.leaves_read fun known => ?_) fun r => ?_)
      fun _ => trivial
    · split
      · exact Tx.leaves_pure
      · exact Tx.leaves_throw
    · split <;> trivial
  | unlinkFromVenue entertainerId venueId =>
    refine alone_read fun found => ?_
    split
    · trivial
    · exact alone_stmt (Model.delete_leaves fun _ _ => rfl)

end Splitcore.Http
