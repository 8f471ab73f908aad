import Splitcore.EntertainerAuth.Tokens
import Splitcore.Interleaving.Once
import Splitcore.Money.Services

/-!
A login link opens at most one session, in time and for the entertainer it was issued for, however the calls
fall beside each other.
-/

namespace Splitcore.EntertainerAuth

open Relational Interleaving

variable {hashToken : String → String} {config : Config} {ok : Pool App LoginCall Unit → Event App LoginCall Db → Prop}
  {p p' p₀ : Pool App LoginCall Unit} {ev : Event App LoginCall Db} {r r' : Run App LoginCall} {tokenId : Uuid}

/-- A call to `redeem` that succeeded. -/
def Redeemed (r : Run App LoginCall) (token : String) : Prop := r.label = .redeem token ∧ r.prog = .ret ()

/-- A call to `issueLoginLink` that succeeded. -/
def Issued (r : Run App LoginCall) (entertainerId : Uuid) (x : Issue) : Prop :=
  r.label = .issueLoginLink entertainerId ∧ r.prog = .ret () ∧ r.log = x.log entertainerId

/-! ### Runs -/

section Step

variable (h : Allowed TokenStep LinksLast p₀.store p) (hs : step (logins hashToken config) p ev = some p')
include h hs

lemma logins_order : LinksLast p.store p'.store :=
  h.order LinksLast.refl (fun _ _ _ => TokenStep.linksLast) (fun v db x db' x' hv => by cases hv; exact LinksLast.refl _) hs

lemma logins_step : Allowed TokenStep LinksLast p₀.store p' :=
  allowed_step LinksLast.refl (fun _ _ _ => LinksLast.trans) (fun _ _ _ => TokenStep.linksLast)
    (fun v db x db' x' hv => by cases hv; exact LinksLast.refl _) program_each h hs

end Step

lemma logins_start (hruns : p₀.runs = []) : Allowed TokenStep LinksLast p₀.store p₀ :=
  ⟨fun r hr => by simp [hruns] at hr, .refl _, fun r hr => by simp [hruns] at hr⟩

lemma logins_allowed (hruns : p₀.runs = []) (h : Reach (logins hashToken config) ok p₀ p) :
    Allowed TokenStep LinksLast p₀.store p :=
  h.keeps (fun _ _ _ hp _ hs => logins_step hp hs) (logins_start hruns)

lemma using_spends : @Spending App TokenStep (fun _ => Uses tokenId) LinksLast (Used tokenId) :=
  ⟨fun _ _ _ _ huses => ⟨huses.unused, huses.2⟩, fun _ _ hlast hused => hused.lasts hlast⟩

/-- **A token is used once.** -/
theorem logins_once (hruns : p₀.runs = []) (h : Reach (logins hashToken config) ok p₀ p) :
    AtMostOnce (fun _ => Uses tokenId) (Used tokenId) p := by
  have hstart : AtMostOnce (fun _ => Uses tokenId) (Used tokenId) p₀ :=
    ⟨fun r hr => by simp [hruns] at hr, fun i j r r' hr => by simp [hruns] at hr⟩
  refine (h.keeps (P := fun p => Allowed TokenStep LinksLast p₀.store p ∧
    AtMostOnce (fun _ => Uses tokenId) (Used tokenId) p)
    (fun p ev p' hp _ hs => ?_) ⟨logins_start hruns, hstart⟩).2
  exact ⟨logins_step hp.1 hs, atMostOnce_step using_spends hp.1 (logins_order hp.1 hs) hp.2 hs⟩

lemma redeemed_report {token : String} (hruns : p₀.runs = []) (h : Reach (logins hashToken config) ok p₀ p)
    (hr : r ∈ p.runs) (hredeemed : Redeemed r token) :
    ∃ x : Redemption, r.log = x.log (hashToken token) ∧ x.Valid (hashToken token) := by
  have hreport := reported (P := SupersedesFirst) (Q := Report hashToken) program_reports hruns h r hr hredeemed.2
  rwa [hredeemed.1] at hreport

lemma issued_report {entertainerId : Uuid} {x : Issue} (hruns : p₀.runs = [])
    (h : Reach (logins hashToken config) ok p₀ p) (hr : r ∈ p.runs) (hissued : Issued r entertainerId x) :
    ∃ t, x.Created hashToken entertainerId t := by
  have hreport := reported (P := SupersedesFirst) (Q := Report hashToken) program_reports hruns h r hr hissued.2.1
  rw [hissued.1] at hreport
  obtain ⟨y, t, hlog, hcreated⟩ := hreport
  have heq : x.log entertainerId = y.log entertainerId := hissued.2.2.symm.trans hlog
  simp only [Issue.log, List.cons.injEq, Did.stmt.injEq, true_and, and_true] at heq
  obtain ⟨⟨hlookup, hdb, -⟩, ⟨hdraw, hdb', -⟩, ⟨hs, hs₁, hs₂⟩, ⟨hc, hc₁, hc₂⟩⟩ := heq
  have hxy : x = y := by
    cases x
    cases y
    simp_all [Prod.ext_iff]
  exact ⟨t, hxy ▸ hcreated⟩

/-! ### Sessions -/

/-- What holds of the sessions that were opened: one for a token at most; each after checks made in time and by
a claim that found the link unused; and, if a call issued the token, by when it said and for its entertainer. -/
structure SessionsSound (hashToken : String → String) (p : Pool App LoginCall Unit) : Prop where
  once : ∀ (i j : ℕ) (r r' : Run App LoginCall) token, p.runs[i]? = some r → p.runs[j]? = some r' →
    Redeemed r token → Redeemed r' token → i = j
  opened : ∀ r ∈ p.runs, ∀ token, Redeemed r token → ∃ x : Redemption, r.log = x.log (hashToken token) ∧
    x.Valid (hashToken token) ∧ ∀ r₀ ∈ p.runs, ∀ entertainerId (y : Issue), Issued r₀ entertainerId y → y.token = token →
      x.checks.1.now ≤ y.expiresAt ∧ x.candidate.entertainerId = entertainerId

/-- What a call saw of a link is the link there is now. -/
lemma Redemption.persists {x : Redemption} {tokenHash : String} (h : Allowed TokenStep LinksLast p₀.store p)
    (hr : r ∈ p.runs) (hlog : r.log = x.log tokenHash) (hvalid : x.Valid tokenHash) :
    ∃ t ∈ p.store.loginTokens.rows, Persists x.candidate t := by
  obtain ⟨-, -, hlast⟩ := h.between r hr (.redeemFind tokenHash) x.lookup.1 x.lookup.2 x.lookup.2
    (by rw [hlog]; simp [Redemption.log])
  exact hlast _ hvalid.found

lemma Issue.persists {x : Issue} {entertainerId : Uuid} {t : EntertainerLoginToken}
    (h : Allowed TokenStep LinksLast p₀.store p) (hr : r ∈ p.runs) (hlog : r.log = x.log entertainerId)
    (hcreated : x.Created hashToken entertainerId t) : ∃ t' ∈ p.store.loginTokens.rows, Persists t t' := by
  obtain ⟨-, -, hlast⟩ := h.between r hr (.issueLoginLinkCreate entertainerId) x.create.1 x.create.2.1 x.create.2.2
    (by rw [hlog]; simp [Issue.log])
  exact hlast _ (by rw [hcreated.1]; simp)

lemma token_eq_of_hash {db : Db} {t t' : EntertainerLoginToken} (ht : t ∈ db.loginTokens.rows)
    (ht' : t' ∈ db.loginTokens.rows) (hhash : t.tokenHash = t'.tokenHash) : t = t' :=
  Table.eq_of_key (k := .text t.tokenHash) ht ht' (by simp [Indexed.keys]) (by simp [Indexed.keys, hhash])

/-- **A login link opens at most one session.** -/
theorem sessions_sound (hruns : p₀.runs = []) (h : Reach (logins hashToken config) ok p₀ p) :
    SessionsSound hashToken p := by
  have hallowed := logins_allowed hruns h
  refine ⟨fun i j r r' token hi hj hredeemed hredeemed' => ?_, fun r hr token hredeemed => ?_⟩
  · have hr := List.mem_of_getElem? hi
    have hr' := List.mem_of_getElem? hj
    obtain ⟨x, hlog, hvalid⟩ := redeemed_report hruns h hr hredeemed
    obtain ⟨x', hlog', hvalid'⟩ := redeemed_report hruns h hr' hredeemed'
    obtain ⟨t, ht, hpersists⟩ := Redemption.persists hallowed hr hlog hvalid
    obtain ⟨t', ht', hpersists'⟩ := Redemption.persists hallowed hr' hlog' hvalid'
    -- both found the row that has the hash of the token
    have hsame : t = t' := token_eq_of_hash ht ht' <| by
      rw [hpersists.tokenHash, hpersists'.tokenHash, hvalid.tokenHash, hvalid'.tokenHash]
    have hid : x'.candidate.id = x.candidate.id := by rw [← hpersists'.id, ← hpersists.id, hsame]
    have hfired : ∀ {r : Run App LoginCall} {x : Redemption}, r.log = x.log (hashToken token) → x.Valid (hashToken token) →
        Fired (fun _ => Uses x.candidate.id) r := fun {r x} hlog hvalid =>
      ⟨.redeemClaim x.candidate.id, x.claim.1, x.claim.2.1, x.claim.2.2, by rw [hlog]; simp [Redemption.log], hvalid.uses⟩
    exact (logins_once hruns h).once i j r r' hi hj (hfired hlog hvalid) (hid ▸ hfired hlog' hvalid')
  · obtain ⟨x, hlog, hvalid⟩ := redeemed_report hruns h hr hredeemed
    refine ⟨x, hlog, hvalid, fun r₀ hr₀ entertainerId y hissued htoken => ?_⟩
    obtain ⟨t, hcreated⟩ := issued_report hruns h hr₀ hissued
    obtain ⟨t₁, ht₁, hpersists₁⟩ := Redemption.persists hallowed hr hlog hvalid
    obtain ⟨t₂, ht₂, hpersists₂⟩ := Issue.persists hallowed hr₀ hissued.2.2 hcreated
    obtain ⟨-, hentertainer, hhash, hexpires, -⟩ := hcreated
    have hsame : t₁ = t₂ := token_eq_of_hash ht₁ ht₂ <| by
      rw [hpersists₁.tokenHash, hpersists₂.tokenHash, hvalid.tokenHash, hhash, htoken]
    have hfields : x.candidate.expiresAt = t.expiresAt ∧ x.candidate.entertainerId = t.entertainerId := by
      rw [← hpersists₁.expiresAt, ← hpersists₂.expiresAt, ← hpersists₁.entertainerId, ← hpersists₂.entertainerId, hsame]
      exact ⟨rfl, rfl⟩
    exact ⟨hvalid.inTime.trans_eq (hfields.1.trans hexpires), hfields.2.trans hentertainer⟩

/-! ### Two taps -/

def entertainerDb : Db := { entertainers := ⟨[Money.sampleEntertainer], Money.sampleEntertainer_keys⟩ }

def localhost : Config := ⟨none, none⟩

/-- A link is issued and tapped twice; both taps find it unused, and the second claims it first. -/
def twoTaps : List (Event App LoginCall Db) :=
  .start (.issueLoginLink (Money.uid 3)) :: Money.execs 0 [1, 2, 3, 4] ++
    [.start (.redeem "token"), .start (.redeem "token")] ++ Money.execs 1 [5, 6] ++ Money.execs 2 [7, 8, 9] ++
    Money.execs 1 [10] ++ Money.asks 2 Money.agreeable

theorem sessions_sound_sample : ∃ p, run (logins id localhost) ⟨entertainerDb, (), []⟩ twoTaps = some p ∧
    (∃ r ∈ p.runs, Redeemed r "token") ∧ SessionsSound id p := by
  have hrun : ((run (logins id localhost) ⟨entertainerDb, (), []⟩ twoTaps).any fun p =>
      p.runs.any fun r => r.label == .redeem "token" && r.returned) = true := by
    decide +kernel
  obtain ⟨p, hp, hany⟩ := (Option.any_eq_true _ _).mp hrun
  simp only [List.any_eq_true, Bool.and_eq_true, beq_iff_eq] at hany
  obtain ⟨r, hr, hlabel, hreturned⟩ := hany
  exact ⟨p, hp, ⟨r, hr, hlabel, Run.prog_of_returned hreturned⟩, sessions_sound rfl (reach_of_run (along_any _) hp)⟩

end Splitcore.EntertainerAuth
