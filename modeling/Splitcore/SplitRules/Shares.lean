import Splitcore.Isolation.Rows
import Splitcore.SplitRules.Lifecycle

/-!
The shares of a rule: no negative one, and together the whole. Two paths create rules, each with a sum
rule of its own; nothing changes the shares of a rule that is there.
-/

namespace Splitcore.SplitRules

open Relational Isolation

/-! ### What is accepted -/

/-- `@IsInt() @Min(0) @Max(10000)`. -/
def isBps (n : ℤ) : Bool := 0 ≤ n && n ≤ 10000

def CreateSplitRuleDto.accepted (dto : CreateSplitRuleDto) : Bool :=
  isBps dto.entertainerBps && isBps dto.venueBps

def SplitRuleSumValidator.validate (dto : OverrideSplitRuleDto) : Bool :=
  dto.entertainerBps + dto.venueBps + dto.platformBps == 10000

def OverrideSplitRuleDto.accepted (dto : OverrideSplitRuleDto) : Bool :=
  isBps dto.entertainerBps && isBps dto.venueBps && isBps dto.platformBps &&
    10 ≤ dto.reason.length && SplitRuleSumValidator.validate dto

def Operation.accepted : Operation → Bool
  | .propose dto _ => dto.accepted
  | .override dto _ => dto.accepted
  | .respond _ _ _ => true

/-- The `CHECK` of the settings row. -/
def FeeInRange (rest : Parties) : Prop := rest.platformFeeBps.all isBps = true

instance (rest : Parties) : Decidable (FeeInRange rest) :=
  inferInstanceAs (Decidable (rest.platformFeeBps.all isBps = true))

/-! ### What is stored -/

structure Whole (r : SplitRule) : Prop where
  entertainer : 0 ≤ r.entertainerBps
  venue : 0 ≤ r.venueBps
  platform : 0 ≤ r.platformBps
  sum : r.entertainerBps + r.venueBps + r.platformBps = 10000

/-- The rule is an old one, or whole. -/
def WholeSince (old : List Uuid) (r : SplitRule) : Prop := r.id ∈ old ∨ Whole r

variable {hashToken : String → String} {old : List Uuid} {r r' : SplitRule}

lemma Whole.of_terms (h : Whole r) (hterms : terms r' = terms r) : Whole r' := by
  simp only [terms, Prod.mk.injEq] at hterms
  obtain ⟨-, -, -, he, hv, hp⟩ := hterms
  exact ⟨he ▸ h.entertainer, hv ▸ h.venue, hp ▸ h.platform, by rw [he, hv, hp]; exact h.sum⟩

lemma WholeSince.of_terms (h : WholeSince old r) (hid : r'.id = r.id) (hterms : terms r' = terms r) :
    WholeSince old r' :=
  h.imp (fun hold => hid ▸ hold) fun hwhole => hwhole.of_terms hterms

lemma isBps_iff {n : ℤ} : isBps n = true ↔ 0 ≤ n ∧ n ≤ 10000 := by
  simp [isBps]

/-- A proposal under the fee that was read. -/
lemma whole_proposed {dto : CreateSplitRuleDto} {rest : Parties} (hdto : dto.accepted = true)
    (hfee : FeeInRange rest) (hsum : dto.entertainerBps + dto.venueBps =
      10000 - rest.platformFeeBps.getD DEFAULT_PLATFORM_FEE_BPS) {user : Uuid} {token : String} {w : Draw} :
    Whole (proposed hashToken dto (rest.platformFeeBps.getD DEFAULT_PLATFORM_FEE_BPS) user token w) := by
  simp only [CreateSplitRuleDto.accepted, Bool.and_eq_true, isBps_iff] at hdto
  refine ⟨hdto.1.1, hdto.2.1, ?_, ?_⟩
  · show 0 ≤ rest.platformFeeBps.getD DEFAULT_PLATFORM_FEE_BPS
    unfold FeeInRange at hfee
    rcases hrow : rest.platformFeeBps with _ | fee <;> rw [hrow] at hfee
    · decide
    · exact (isBps_iff.mp hfee).1
  · simp only [proposed]
    omega

lemma whole_overriding {dto : OverrideSplitRuleDto} (hdto : dto.accepted = true) {user : Uuid}
    {now : Time} {w : Draw} : Whole (overriding dto user now w) := by
  simp only [OverrideSplitRuleDto.accepted, Bool.and_eq_true, isBps_iff, SplitRuleSumValidator.validate,
    beq_iff_eq] at hdto
  obtain ⟨⟨⟨⟨he, hv⟩, hp⟩, -⟩, hsum⟩ := hdto
  exact ⟨he.1, hv.1, hp.1, hsum⟩

/-! ### Calls, and whole runs -/

/-- The call stores whole rules, and keeps them so. -/
abbrev MakesWhole (old : List Uuid) {α : Type} (c : Call Rules α) : Prop :=
  Makes FeeInRange (WholeSince old) c

lemma closeEach_makes {at_ : Time} {except : Option Uuid} (rules : List SplitRule) :
    MakesWhole old (closeEach at_ except rules) := by
  induction rules with
  | nil => trivial
  | cons rule rules ih =>
    refine makes_update (fun r hr => hr.of_terms rfl rfl) fun closed => ?_
    split
    · trivial
    · exact makes_note ih

lemma closeOutActive_makes {venueId : Uuid} {at_ : Time} {except : Option Uuid} :
    MakesWhole old (closeOutActive venueId at_ except) :=
  makes_query fun _ _ _ => closeEach_makes _

lemma propose_makes {dto : CreateSplitRuleDto} {user : Uuid} (hdto : dto.accepted = true) :
    MakesWhole old (propose hashToken dto user) := by
  refine makes_query fun w s hfee => ?_
  simp only
  split
  · trivial
  rename_i hsum
  refine makes_query fun _ _ _ => ?_
  split
  · trivial
  refine makes_query fun _ _ _ => ?_
  split
  · trivial
  refine makes_query fun _ _ _ => makes_bind (makes_updateMany fun r hr => hr.of_terms rfl rfl) fun _ => ?_
  exact makes_insert (fun w => .inr (whole_proposed hdto hfee (not_not.mp hsum))) fun _ =>
    makes_note trivial

lemma forceSet_makes {dto : OverrideSplitRuleDto} {user : Uuid} (hdto : dto.accepted = true) :
    MakesWhole old (forceSet dto user) := by
  refine makes_query fun _ _ _ => makes_bind closeOutActive_makes fun _ => ?_
  exact makes_insert (fun w => .inr (whole_overriding hdto)) fun _ => makes_note trivial

lemma respond_makes {splitRuleId : Uuid} {token : String} {decision : Decision} :
    MakesWhole old (respond hashToken splitRuleId token decision) := by
  have hfind : MakesWhole old (findByConsentToken hashToken splitRuleId token) := by
    refine makes_query fun _ _ _ => ?_
    split
    · trivial
    split
    · trivial
    split
    · trivial
    · trivial
  refine makes_bind hfind fun rule => makes_query fun _ _ _ => ?_
  refine makes_update (fun r hr => ?_) fun claimed => ?_
  · cases decision
    · exact hr.of_terms rfl rfl
    · exact hr.of_terms rfl rfl
  split
  · trivial
  split
  · refine makes_bind closeOutActive_makes fun _ => makes_note (makes_query fun _ _ _ => ?_)
    split <;> trivial
  · refine makes_note (makes_query fun _ _ _ => ?_)
    split <;> trivial

/-- **Every accepted call stores whole rules.** -/
theorem call_makes {op : Operation} (h : op.accepted = true) : MakesWhole old (op.call hashToken) := by
  cases op with
  | propose dto user => exact makes_bind (propose_makes h) fun _ => trivial
  | override dto user => exact makes_bind (forceSet_makes h) fun _ => trivial
  | respond id token decision => exact makes_bind respond_makes fun _ => trivial

end Splitcore.SplitRules
