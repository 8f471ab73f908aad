import Splitcore.Isolation.Guarantees
import Splitcore.SplitRules.Service

/-!
What the calls do to rules.

Every version a transaction makes of a committed rule is one of four: withdrawn, accepted, rejected,
superseded. A call that closes rules puts one in force itself, and it closes those it found.
-/

namespace Splitcore.SplitRules

open Relational Isolation

/-- In force at a venue. -/
def InForce (venueId : Uuid) (r : SplitRule) : Prop :=
  r.venueId = venueId ∧ r.status = .ACTIVE ∧ r.effectiveTo = none

instance (venueId : Uuid) (r : SplitRule) : Decidable (InForce venueId r) :=
  inferInstanceAs (Decidable (_ ∧ _))

lemma isOutgoing_iff {venueId : Uuid} {except : Option Uuid} {r : SplitRule} :
    isOutgoing venueId except r = true ↔ InForce venueId r ∧ some r.id ≠ except := by
  simp [isOutgoing, InForce, and_assoc]

/-- The rule came into force at some time. -/
def HasBeenActive (r : SplitRule) : Prop := r.status = .ACTIVE ∨ r.status = .SUPERSEDED

/-- Exactly the rules that came into force have a date for it, which is the table's `CHECK`; and
those that have an end were superseded. -/
structure Dated (r : SplitRule) : Prop where
  begins : r.effectiveFrom ≠ none ↔ HasBeenActive r
  ends : r.effectiveTo ≠ none → r.status = .SUPERSEDED

/-- What never changes about a rule. -/
def terms (r : SplitRule) : Uuid × SplitRuleOrigin × Option Uuid × ℤ × ℤ × ℤ :=
  (r.venueId, r.origin, r.entertainerId, r.entertainerBps, r.venueBps, r.platformBps)

/-! ### How a rule evolves -/

/-- The status changes there are. -/
inductive Transition : SplitRuleStatus → SplitRuleStatus → Prop
  | accepted : Transition .PENDING_ENTERTAINER_APPROVAL .ACTIVE
  | rejected : Transition .PENDING_ENTERTAINER_APPROVAL .REJECTED
  | withdrawn : Transition .PENDING_ENTERTAINER_APPROVAL .WITHDRAWN
  | superseded : Transition .ACTIVE .SUPERSEDED

/-- What a rule can have become: its status has moved on, its terms have not, and an open proposal
is answered by the token it was made with. -/
structure Evolves (r r' : SplitRule) : Prop where
  id : r'.id = r.id
  terms : terms r' = terms r
  status : Relation.ReflTransGen Transition r.status r'.status
  token : r'.status = OPEN_PROPOSAL → r'.responseTokenHash = r.responseTokenHash

variable {r r' r'' : SplitRule}

lemma open_of_reaches {a : SplitRuleStatus} (h : Relation.ReflTransGen Transition a OPEN_PROPOSAL) :
    a = OPEN_PROPOSAL := by
  cases h with
  | refl => rfl
  | tail _ hlast => cases hlast

lemma Evolves.refl (r : SplitRule) : Evolves r r := ⟨rfl, rfl, .refl, fun _ => rfl⟩

lemma Evolves.trans (h : Evolves r r') (h' : Evolves r' r'') : Evolves r r'' where
  id := h'.id.trans h.id
  terms := h'.terms.trans h.terms
  status := h.status.trans h'.status
  token hopen := by
    have hopen' : r'.status = OPEN_PROPOSAL := open_of_reaches (hopen ▸ h'.status)
    exact (h'.token hopen).trans (h.token hopen')

/-- An answered proposal stays as it was answered. -/
lemma final_status {a b : SplitRuleStatus} (h : Relation.ReflTransGen Transition a b)
    (ha : a = .REJECTED ∨ a = .WITHDRAWN) : b = a := by
  induction h with
  | refl => rfl
  | tail _ hlast ih =>
    subst ih
    rcases ha with rfl | rfl <;> cases hlast

lemma Evolves.hasBeenActive (h : Evolves r r') (hr : HasBeenActive r) : HasBeenActive r' := by
  have hstatus := h.status
  unfold HasBeenActive at hr ⊢
  generalize r.status = a, r'.status = b at hr hstatus ⊢
  induction hstatus with
  | refl => exact hr
  | tail _ hlast ih =>
    rcases ih with rfl | rfl
    · cases hlast; exact .inr rfl
    · cases hlast

/-! ### The versions a call makes -/

variable (hashToken : String → String)

/-- What a call makes of a committed rule. -/
inductive Changed : Operation → SplitRule → SplitRule → Prop
  | withdrawn {dto : CreateSplitRuleDto} {user : Uuid} {r : SplitRule}
      (hopen : isOpen dto.venueId r = true) : Changed (.propose dto user) r (withdraw r)
  | answered {id : Uuid} {token : String} {decision : Decision} {now : Time} {r : SplitRule}
      (hid : r.id = id) (hopen : r.status = OPEN_PROPOSAL)
      (htoken : r.responseTokenHash = some (hashToken token)) :
      Changed (.respond id token decision) r (answer decision now r)
  | superseded {op : Operation} {at_ : Time} {r : SplitRule} (hactive : HasBeenActive r) :
      Changed op r (supersede at_ r)

/-- A rule a call creates. -/
inductive Created : Operation → SplitRule → Prop
  | proposed {dto : CreateSplitRuleDto} {user : Uuid} {platformBps : ℤ} {token : String} {w : Draw} :
      Created (.propose dto user) (proposed hashToken dto platformBps user token w)
  | overriding {dto : OverrideSplitRuleDto} {user : Uuid} {now : Time} {w : Draw} :
      Created (.override dto user) (overriding dto user now w)

variable {hashToken} {op : Operation}

lemma Changed.evolves (h : Changed hashToken op r r') : Evolves r r' := by
  cases h with
  | withdrawn hopen =>
    have hstatus : r.status = OPEN_PROPOSAL := by simp_all [isOpen]
    exact ⟨rfl, rfl, .single (hstatus ▸ .withdrawn), nofun⟩
  | answered hid hopen htoken =>
    rename_i id token decision now
    cases decision with
    | ACCEPT => exact ⟨rfl, rfl, .single (hopen ▸ .accepted), nofun⟩
    | REJECT => exact ⟨rfl, rfl, .single (hopen ▸ .rejected), nofun⟩
  | superseded hactive =>
    rename_i at_
    refine ⟨rfl, rfl, ?_, nofun⟩
    rcases hactive with hactive | hsuperseded
    · exact .single (hactive ▸ .superseded)
    · exact hsuperseded ▸ .refl

/-- One version is at most one transition. -/
lemma Changed.transition (h : Changed hashToken op r r') :
    r'.status = r.status ∨ Transition r.status r'.status := by
  cases h with
  | withdrawn hopen =>
    have hstatus : r.status = OPEN_PROPOSAL := by simp_all [isOpen]
    exact .inr (hstatus ▸ .withdrawn)
  | answered hid hopen htoken =>
    rename_i id token decision now
    cases decision with
    | ACCEPT => exact .inr (hopen ▸ .accepted)
    | REJECT => exact .inr (hopen ▸ .rejected)
  | superseded hactive =>
    rename_i at_
    rcases hactive with hactive | hsuperseded
    · exact .inr (hactive ▸ .superseded)
    · exact .inl hsuperseded.symm

lemma Changed.supersedes (h : Changed hashToken op r r') (hactive : r.status = .ACTIVE) :
    r'.status = .SUPERSEDED := by
  cases h with
  | withdrawn hopen => simp [isOpen, hactive, OPEN_PROPOSAL] at hopen
  | answered hid hopen => cases hactive.symm.trans hopen
  | superseded => rfl

lemma Changed.dated (h : Changed hashToken op r r') (hr : Dated r) : Dated r' := by
  obtain ⟨hbegins, hends⟩ := hr
  cases h with
  | withdrawn hopen =>
    have hstatus : r.status = OPEN_PROPOSAL := by simp_all [isOpen]
    refine ⟨?_, fun hto => ?_⟩
    · simp_all [HasBeenActive, withdraw, OPEN_PROPOSAL]
    · cases (hends hto).symm.trans hstatus
  | answered hid hopen htoken =>
    rename_i id token decision now
    cases decision with
    | ACCEPT =>
      refine ⟨by simp [HasBeenActive, answer], fun hto => ?_⟩
      cases (hends hto).symm.trans hopen
    | REJECT =>
      refine ⟨by simp_all [HasBeenActive, answer, OPEN_PROPOSAL], fun hto => ?_⟩
      cases (hends hto).symm.trans hopen
  | superseded hactive =>
    have hfrom := hbegins.mpr hactive
    exact ⟨by simpa [HasBeenActive, supersede] using hfrom, fun _ => rfl⟩

lemma Created.dated (h : Created hashToken op r) : Dated r := by
  cases h <;> constructor <;>
    simp [HasBeenActive, SplitRules.proposed, SplitRules.overriding, OPEN_PROPOSAL]

/-- What a call that commits has done: it made such versions and no others; it answered, if that is
what it was for; and if it closed rules, it put one in force and closed what it found. -/
structure Does (hashToken : String → String) (op : Operation) (k : Work Rules) : Prop where
  changed : ∀ w ∈ k.writes, ∀ r, w.before = some r → Changed hashToken op r w.after
  created : ∀ w ∈ k.writes, w.before = none → Created hashToken op w.after
  answers : ∀ id token decision, op = .respond id token decision →
    ∃ w ∈ k.writes, ∃ r now, w.before = some r ∧ r.id = id ∧ w.after = answer decision now r ∧
      r.status = OPEN_PROPOSAL ∧ r.responseTokenHash = some (hashToken token)
  replaces : ∀ w ∈ k.writes, w.after.status = .SUPERSEDED →
    ∃ w' ∈ k.writes, InForce w.after.venueId w'.after
  single : ∀ venueId, ∀ w ∈ k.writes, ∀ w' ∈ k.writes, InForce venueId w.after →
    InForce venueId w'.after → w = w'
  closes : ∀ venueId, ∀ w ∈ k.writes, InForce venueId w.after →
    ∃ view, (Site.outgoing venueId, view) ∈ k.reads ∧ ∀ r ∈ view.table.rows, InForce venueId r →
      ∃ w' ∈ k.writes, w'.after.id = r.id

/-! ### The discipline -/

variable {s s' v : Store Rules} {k : Work Rules}

def Inv (s : Store Rules) : Prop := ∀ r ∈ s.table.rows, Dated r

def Later (s s' : Store Rules) : Prop :=
  ∀ id r, s.row id = some r → ∃ r', s'.row id = some r' ∧ Evolves r r'

/-- What a commit leaves of a rule. -/
lemma Does.row (h : Does hashToken op k) (hv : Sees k s v) {id : Uuid} {r : SplitRule}
    (hr : s.row id = some r) : ∃ r', v.row id = some r' ∧ (r' = r ∨ Changed hashToken op r r') := by
  rw [hv.row]
  rcases hwrote : k.wrote id with _ | w
  · exact ⟨r, hr, .inl rfl⟩
  · have hmem : w ∈ k.writes := List.mem_of_find?_eq_some hwrote
    have hid : w.after.id = id := eq_of_beq (List.find?_some hwrote :)
    refine ⟨w.after, rfl, .inr ?_⟩
    rcases hb : w.before with _ | r₀
    · have hnone := hv.created hmem hb
      rw [show s.row (Rules.id w.after) = s.row id from congrArg s.row hid, hr] at hnone
      cases hnone
    · have hcurrent := hv.held.current w hmem r₀ hb
      rw [show s.row (Rules.id w.after) = s.row id from congrArg s.row hid, hr] at hcurrent
      cases hcurrent
      exact h.changed w hmem r hb

/-- Where a rule comes from after a commit. -/
lemma Does.source (h : Does hashToken op k) (hv : Sees k s v) (hr : r ∈ v.table.rows) :
    r ∈ s.table.rows ∧ k.wrote r.id = none ∨ ∃ w ∈ k.writes, r = w.after ∧
      (w.before = none ∧ Created hashToken op r ∨
        ∃ r₀ ∈ s.table.rows, w.before = some r₀ ∧ Changed hashToken op r₀ r) := by
  have hrow : v.row r.id = some r := row_of_mem hr
  rw [hv.row] at hrow
  rcases hwrote : k.wrote r.id with _ | w <;> rw [hwrote] at hrow
  · exact .inl ⟨(row_eq_some.mp hrow).1, rfl⟩
  · have hmem : w ∈ k.writes := List.mem_of_find?_eq_some hwrote
    obtain rfl : w.after = r := Option.some.inj hrow
    refine .inr ⟨w, hmem, rfl, ?_⟩
    rcases hb : w.before with _ | r₀
    · exact .inl ⟨rfl, h.created w hmem hb⟩
    · have hcurrent := hv.held.current w hmem r₀ hb
      exact .inr ⟨r₀, (row_eq_some.mp hcurrent).1, rfl, h.changed w hmem r₀ hb⟩

/-- **The discipline of split rules.** -/
def lifecycle (hashToken : String → String) : Discipline Rules Operation where
  Inv := Inv
  Later := Later
  Does := Does hashToken
  refl _ _ r hr := ⟨r, hr, .refl r⟩
  trans h h' id r hr := by
    obtain ⟨r', hr', he⟩ := h id r hr
    obtain ⟨r'', hr'', he'⟩ := h' id r' hr'
    exact ⟨r'', hr'', he.trans he'⟩
  commit {op k s v} hinv hv hdoes := by
    refine ⟨fun r hr => ?_, fun id r hr => ?_⟩
    · rcases hdoes.source hv hr with ⟨hold, -⟩ | ⟨w, -, rfl, ⟨-, hnew⟩ | ⟨r₀, hr₀, -, hchanged⟩⟩
      · exact hinv r hold
      · exact hnew.dated
      · exact hchanged.dated (hinv r₀ hr₀)
    · obtain ⟨r', hr', rfl | hchanged⟩ := hdoes.row hv hr
      · exact ⟨r', hr', .refl r'⟩
      · exact ⟨r', hr', hchanged.evolves⟩
  others r hinv := ⟨hinv, fun id r hr => ⟨r, hr, .refl r⟩⟩

end Splitcore.SplitRules
