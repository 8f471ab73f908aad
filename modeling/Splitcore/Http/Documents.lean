import Splitcore.Http.Exchanges
import Splitcore.Interleaving.Alike
import Splitcore.Onboarding.Confirmed

/-!
The number of an identity document goes to the provider and nowhere else: neither what is stored nor what is
returned is different for another number.
-/

namespace Splitcore.Http

open Relational Interleaving Onboarding

variable {config : Deployment} {s s₀ : Server} {toUpperCase : String → String}

/-! ### Alike up to a number -/

inductive SameQuestion : Ask → Ask → Prop
  | same (q : Ask) : SameQuestion q q
  | number (params : IdentityParams) (documentNumber : String) :
      SameQuestion (.verifyIdentity params) (.verifyIdentity { params with documentNumber })

inductive SameCall : Call → Call → Prop
  | same (call : Call) : SameCall call call
  | number (entertainerId : Uuid) (documentType : IdentityDocumentType) (documentNumber documentNumber' : String) :
      SameCall (.verifyIdentity entertainerId documentType documentNumber)
        (.verifyIdentity entertainerId documentType documentNumber')

inductive SameRequest : Request → Request → Prop
  | same (r : Request) : SameRequest r r
  | number (bearer : Option String) (entertainerId : Uuid) (documentType : IdentityDocumentType)
      (documentNumber documentNumber' : String) :
      SameRequest ⟨bearer, .kycVerifyIdentity entertainerId (.valid (documentType, documentNumber))⟩
        ⟨bearer, .kycVerifyIdentity entertainerId (.valid (documentType, documentNumber'))⟩

/-- Two exchanges with the same response and the same effect. -/
structure ExchangesAlike (x x' : Exchange) : Prop where
  request : SameRequest x.request x'.request
  now : x'.now = x.now
  before : x'.before = x.before
  log : List.Forall₂ (LooksLike (σ := App) SameQuestion) x.log x'.log
  outcome : x'.outcome = x.outcome
  after : x'.after = x.after

/-- Whatever is done with some numbers, is done the same way with any others: by calls that are under way at the
same time, up to what they asked, and by requests, up to that and to what is in them. -/
structure NumbersUnseen (config : Deployment) : Prop where
  stores : ∀ (db : Db) evs p calls, run (entertainerAccounts config.toUpperCase fun _ => true) ⟨db, (), []⟩ evs = some p →
    List.Forall₂ SameCall (started evs) calls → ∃ evs' p', started evs' = calls ∧
      run (entertainerAccounts config.toUpperCase fun _ => true) ⟨db, (), []⟩ evs' = some p' ∧
      PoolsAlike (σ := App) SameQuestion SameCall p p'
  responses : ∀ s₀ xs s rs, Session config s₀ xs s → List.Forall₂ SameRequest (xs.map (·.request)) rs →
    ∃ xs', xs'.map (·.request) = rs ∧ Session config s₀ xs' s ∧ List.Forall₂ ExchangesAlike xs xs'

/-! ### The check -/

lemma sameQuestion_ans (q q' : Ask) (h : SameQuestion q q') : Ans q = Ans q' := by
  cases h <;> rfl

/-- What is done after the check goes by its result. -/
lemma alike_verifyIdentity (entertainerId : Uuid) (documentType : IdentityDocumentType)
    (documentNumber documentNumber' : String) :
    Alike (σ := App) SameQuestion (verifyIdentity entertainerId documentType documentNumber)
      (verifyIdentity entertainerId documentType documentNumber') := by
  have hsame : ∀ {α : Type} (p : Prog App α), Alike SameQuestion p p := fun p => alike_refl .same p
  refine alike_bind (hsame _) fun entertainer => alike_bind (hsame _) fun _ => ?_
  split
  · exact hsame _
  split
  · exact hsame _
  refine .ask (.number _ documentNumber') fun a a' ha => ?_
  rw [eq_of_heq ha]
  exact hsame _

lemma entertainerAccounts_takesAlike (allowed : Call → Bool)
    (hallowed : ∀ call call', SameCall call call' → allowed call' = allowed call) :
    TakesAlike (σ := App) SameQuestion SameCall (entertainerAccounts toUpperCase allowed) where
  entry call call' h := by
    cases h with
    | same => exact alike_refl .same _
    | number id documentType n n' => exact alike_bind (alike_verifyIdentity id documentType n n') fun _ => .ret ()
  start call call' h := by
    show (fun (_ : Db) (x : Unit) => if allowed call' then some x else none) = _
    rw [hallowed call call' h]
    rfl
  send _ _ _ _ _ _ := rfl
  answers _ _ _ _ _ _ _ := rfl
  finish _ _ _ := rfl
  crash _ _ _ := rfl

/-! ### Requests -/

/-- The guards do not look into the document. -/
lemma canActivate_number {now : Time} {bearer : Option String} {id : Uuid} {documentType : IdentityDocumentType}
    {n n' : String} : canActivate config now s ⟨bearer, .kycVerifyIdentity id (.valid (documentType, n'))⟩ =
      canActivate config now s ⟨bearer, .kycVerifyIdentity id (.valid (documentType, n))⟩ := rfl

theorem exchange_alike {x : Exchange} {r : Request} (hx : Exchanges config x) (hr : SameRequest x.request r) :
    ∃ x', x'.request = r ∧ Exchanges config x' ∧ ExchangesAlike x x' := by
  have hlog : ∀ log : List (Did App), List.Forall₂ (LooksLike SameQuestion) log log :=
    fun log => List.forall₂_same.mpr fun d _ => .same d
  obtain ⟨req, now, before, log, outcome, after⟩ := x
  cases hr with
  | same => exact ⟨_, rfl, hx, .same _, rfl, rfl, hlog _, rfl, rfl⟩
  | number bearer id documentType n n' =>
    have hsame := SameRequest.number bearer id documentType n n'
    cases hx with
    | refused h => exact ⟨_, rfl, .refused (canActivate_number.trans h), hsame, rfl, rfl, hlog _, rfl, rfl⟩
    | turnedAway _ _ _ he => exact ⟨_, rfl, .turnedAway _ now before he, hsame, rfl, rfl, hlog _, rfl, rfl⟩
    | invalid h hbody => cases hbody
    | handled h hroute hruns =>
      cases hroute
      cases hruns with
      | service _ hends =>
        obtain ⟨log', hends', halike⟩ := (alike_verifyIdentity id documentType n n').ends sameQuestion_ans hends
        exact ⟨_, rfl, .handled (canActivate_number.trans h) rfl (.service _ hends'), hsame, rfl, rfl, halike, rfl,
          rfl⟩

lemma session_alike {xs : List Exchange} {rs : List Request} (h : Session config s₀ xs s)
    (hrs : List.Forall₂ SameRequest (xs.map (·.request)) rs) :
    ∃ xs', xs'.map (·.request) = rs ∧ Session config s₀ xs' s ∧ List.Forall₂ ExchangesAlike xs xs' := by
  induction h generalizing rs with
  | nil =>
    cases hrs
    exact ⟨[], rfl, .nil, .nil⟩
  | @snoc xs x _ hx ih =>
    rw [List.map_append] at hrs
    have hpast := (List.forall₂_take_append rs _ _ hrs.flip).flip
    have hlast := (List.forall₂_drop_append rs _ _ hrs.flip).flip
    obtain ⟨xs', hxs', hsession, halike⟩ := ih hpast
    obtain ⟨r, hr⟩ : ∃ r, rs.drop (xs.map (·.request)).length = [r] := by
      rcases hdrop : rs.drop (xs.map (·.request)).length with _ | ⟨r, _ | ⟨_, _⟩⟩ <;> rw [hdrop] at hlast <;>
        simp at hlast
      exact ⟨r, hdrop⟩
    rw [hr] at hlast
    cases hlast with
    | cons hsame _ =>
      obtain ⟨x', rfl, hx', hx''⟩ := exchange_alike hx hsame
      rw [← hx''.before] at hsession
      refine ⟨xs' ++ [x'], ?_, hx''.after ▸ .snoc hsession hx', List.rel_append halike (.cons hx'' .nil)⟩
      rw [List.map_append, hxs', List.map_singleton, ← hr, List.take_append_drop]

/-- **The number of a document is not seen** by anybody but the provider: no interleaving of calls stores it,
and no response depends on it. -/
theorem numbers_unseen : NumbersUnseen config where
  stores db evs p calls hrun hcalls := by
    refine alike_run sameQuestion_ans (entertainerAccounts_takesAlike _ fun _ _ _ => rfl) ⟨rfl, rfl, .nil⟩ hrun hcalls
  responses s₀ xs s rs hsession hrs := session_alike hsession hrs

end Splitcore.Http
