import Splitcore.Http.Actors

/-!
Which rules come into force: none that a venue proposed, as long as the admin of the venue does not answer
the proposals in the entertainer's place.
-/

namespace Splitcore.Http

open Relational Interleaving SplitRules

variable {config : Deployment} {userId venueId : Uuid} {past : List Exchange} {x : Exchange} {s s₀ : Server}
  {t t' : Table SplitRule} {accepting : Prop} {rule : SplitRule}

/-! ### What the session of an admin must not do -/

/-- No rule that a venue proposed came into force. -/
def NoneInForce (t t' : Table SplitRule) : Prop :=
  ∀ r' ∈ t'.rows, r'.origin = .VENUE_PROPOSAL → r'.status = .ACTIVE → ∃ r ∈ t.rows, r.id = r'.id ∧ r.status = .ACTIVE

/-- The token of a proposal that was returned does not accept it while it is open. -/
def AcceptsNoReturnedProposal (config : Deployment) (past : List Exchange) (x : Exchange) : Prop :=
  ∀ id token, x.request.route = .respond id token (.valid .ACCEPT) → Returned Response.consentToken past token →
    ∀ rule ∈ x.before.db.splitRules.rows, rule.id = id →
      rule.responseTokenHash = some (config.hashToken token) → rule.status ≠ OPEN_PROPOSAL

/-- In all sessions of somebody who starts with the account and whose requests are `ok`, no rule that a
venue proposed comes into force. -/
def ConsentIsTheirs (config : Deployment) (userId : Uuid) (ok : List Exchange → Exchange → Prop) (s₀ : Server) : Prop :=
  ∀ xs s, Session config s₀ xs s →
    Along (fun past x => Knows config userId past x ∧ Signs config x ∧ ok past x) xs →
    ∀ x ∈ xs, NoneInForce x.before.db.splitRules x.after.db.splitRules

/-! ### What an exchange makes of the rules -/

lemma noneInForce_same (h : t' = t) : NoneInForce t t' := by
  intro r' hr' _ hactive
  rw [h] at hr'
  exact ⟨r', hr', rfl, hactive⟩

/-- Rules that moved without an acceptance. -/
lemma noneInForce_turned (h : Turned venueId accepting t t') (hnot : ¬accepting) : NoneInForce t t' := by
  intro r' hr' _ hactive
  obtain ⟨r, hr, htouch⟩ := Money.exists_of_forall₂ h hr'
  exact ⟨r, hr, htouch.follows.id.symm, (htouch.follows.active hactive).resolve_right hnot⟩

/-- A rule was added that is not in force, or that no venue proposed. -/
lemma noneInForce_adds (h : Adds venueId rule t t') (hrule : rule.origin = .VENUE_PROPOSAL → rule.status ≠ .ACTIVE) :
    NoneInForce t t' := by
  obtain ⟨t₁, hturned, hinsert⟩ := h
  intro r' hr' horigin hactive
  rw [Table.rows_insert hinsert, List.mem_append, List.mem_singleton] at hr'
  rcases hr' with hold | rfl
  · exact noneInForce_turned hturned not_false r' hold horigin hactive
  · exact absurd hactive (hrule horigin)

/-- **One exchange.** -/
theorem noneInForce_exchange (hx : Exchanges config x) (hknows : Knows config userId past x)
    (haccepts : AcceptsNoReturnedProposal config past x) :
    NoneInForce x.before.db.splitRules x.after.db.splitRules := by
  rcases exchanges_called hx with ⟨-, hafter, -⟩ | ⟨user, res, -, -, -, hmakes⟩
  · exact noneInForce_same (by rw [hafter])
  have hregistry : ∀ {db db' : Db}, registry db' = registry db → NoneInForce db.splitRules db'.splitRules :=
    fun heq => noneInForce_same (congrArg (·.2.2.2.2) heq)
  cases hmakes with
  | nothing heq _ => exact hregistry heq
  | loggedIn _ _ _ _ _ _ _ heq => exact hregistry heq
  | redeemed _ _ _ _ _ _ _ _ heq => exact hregistry heq
  | proposed dto rule token url t _ _ _ hstatus _ hdb hadds =>
    rw [hdb]
    exact noneInForce_adds hadds fun _ hactive => by rw [hstatus] at hactive; cases hactive
  | overridden dto rule t _ horigin hdb hadds _ =>
    rw [hdb]
    exact noneInForce_adds hadds fun hproposed => by rw [horigin] at hproposed; cases hproposed
  | responded token decision rule t hroute hrule hhash hopen hdb hturned _ =>
    rw [hdb]
    refine noneInForce_turned hturned fun haccept => ?_
    -- the proposal was returned, so it is not accepted
    subst haccept
    have hreturned := hknows.consentToken _ token _ hroute rule hrule hhash
    exact haccepts rule.id token hroute hreturned rule hrule rfl hhash hopen
  | venueCreated _ _ _ hdb _ => exact noneInForce_same (by rw [hdb])
  | venueWritten _ _ _ hwrites _ =>
    obtain ⟨t, -, hdb⟩ := hwrites
    exact noneInForce_same (by rw [hdb]; rfl)
  | confirmed _ _ _ hwrites _ =>
    obtain ⟨t, -, hdb⟩ := hwrites
    exact noneInForce_same (by rw [hdb]; rfl)
  | onboarded _ _ _ hwrites _ =>
    obtain ⟨t, -, hdb⟩ := hwrites
    exact noneInForce_same (by rw [hdb]; rfl)
  | operated _ _ _ hsame _ _ _ => exact noneInForce_same (congrArg Prod.snd hsame)

/-- **A venue cannot put its own terms in force**, in any session of an admin who does not accept the
proposals whose tokens were returned. -/
theorem consent_is_theirs : ConsentIsTheirs config userId (AcceptsNoReturnedProposal config) s₀ := by
  intro xs s hsession halong
  refine (session_along hsession halong (I := fun _ _ => True) trivial fun past x _ hx hok => ⟨trivial, ?_⟩).2
  obtain ⟨hknows, -, haccepts⟩ := hok
  exact noneInForce_exchange hx hknows haccepts

/-! ### A proposal answered by the one who made it -/

/-- The admin proposes terms, and accepts them. -/
def agreedForThem : List (Request × Input) :=
  [asAdmin 1 (.propose (.valid ⟨Money.uid 2, Money.uid 3, 1000, 8500⟩)),
    (⟨none, .respond (Money.uid 1000) "1" (.valid .ACCEPT)⟩, QrCodes.drawnAt 2)]

/-- A rule that a venue proposed came into force. -/
def putsInForce (x : Exchange) : Bool := x.after.db.splitRules.rows.any fun r' =>
  r'.origin == .VENUE_PROPOSAL && r'.status == .ACTIVE && x.before.db.splitRules.rows.all fun r =>
    r.id != r'.id || r.status != .ACTIVE

lemma not_noneInForce (h : putsInForce x = true) : ¬NoneInForce x.before.db.splitRules x.after.db.splitRules := by
  intro hnone
  obtain ⟨r', hr', hboth⟩ := List.any_eq_true.mp h
  simp only [Bool.and_eq_true, beq_iff_eq, List.all_eq_true, Bool.or_eq_true, bne_iff_ne] at hboth
  obtain ⟨⟨horigin, hactive⟩, hall⟩ := hboth
  obtain ⟨r, hr, hid, hbefore⟩ := hnone r' hr' horigin hactive
  rcases hall r hr with hne | hne
  · exact hne hid
  · exact hne hbefore

theorem admin_agrees : ¬ConsentIsTheirs sampleDeployment (Money.uid 9) (fun _ _ => True) sampleServer := by
  intro htheirs
  have hrun : ((converse Money.agreeable sampleDeployment [] sampleServer agreedForThem).any fun r =>
      passes (fun past x => knows sampleDeployment (Money.uid 9) past x && signs sampleDeployment x) [] r.1 &&
        r.1.any putsInForce) = true := by decide +kernel
  obtain ⟨xs, s, hsession, halong, x, hx, hputs⟩ := session_passes knows_signs_of hrun
  exact not_noneInForce hputs (htheirs xs s hsession halong x hx)

end Splitcore.Http
