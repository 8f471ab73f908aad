import Splitcore.Isolation.Alone
import Splitcore.Money.Changes
import Splitcore.SplitRules.Service

/-!
What each call makes of the rules by itself.
-/

namespace Splitcore.SplitRules

open Relational Isolation

variable {hashToken : String → String} {fault : Err → Prop} {s s' : Store Rules} {venueId : Uuid} {at_ : Time}
  {except : Option Uuid} {accepting : Prop} {r r' r'' : SplitRule}

/-- A later version of a rule: in force only if it was before, or accepted; answered by the token it
was made with, or by none. -/
structure Follows (accepting : Prop) (r r' : SplitRule) : Prop where
  id : r'.id = r.id
  venueId : r'.venueId = r.venueId
  origin : r'.origin = r.origin
  token : r'.responseTokenHash = none ∨ r'.responseTokenHash = r.responseTokenHash
  active : r'.status = .ACTIVE → r.status = .ACTIVE ∨ accepting

/-- The rule is as it was, or a later version of one of the venue's. -/
def Touches (venueId : Uuid) (accepting : Prop) (r r' : SplitRule) : Prop :=
  r' = r ∨ r.venueId = venueId ∧ Follows accepting r r'

lemma Touches.refl (r : SplitRule) : Touches venueId accepting r r := .inl rfl

lemma Touches.follows (h : Touches venueId accepting r r') : Follows accepting r r' := by
  rcases h with rfl | ⟨-, h⟩
  · exact ⟨rfl, rfl, rfl, .inr rfl, .inl⟩
  · exact h

lemma Follows.trans (h : Follows accepting r r') (h' : Follows accepting r' r'') : Follows accepting r r'' where
  id := h'.id.trans h.id
  venueId := h'.venueId.trans h.venueId
  origin := h'.origin.trans h.origin
  token := by
    rcases h'.token with hnone | hsame
    · exact .inl hnone
    · rw [hsame]
      exact h.token
  active hactive := (h'.active hactive).elim h.active .inr

lemma Touches.trans (a b c : SplitRule) (h : Touches venueId accepting a b) (h' : Touches venueId accepting b c) :
    Touches venueId accepting a c := by
  rcases h with rfl | ⟨hvenue, hfollows⟩
  · exact h'
  · exact .inr ⟨hvenue, hfollows.trans h'.follows⟩

lemma touches_withdraw (hopen : isOpen venueId r = true) : Touches venueId accepting r (withdraw r) := by
  simp only [isOpen, Bool.and_eq_true, beq_iff_eq] at hopen
  exact .inr ⟨hopen.1, rfl, rfl, rfl, .inl rfl, fun h => by cases h⟩

lemma touches_supersede (hvenue : r.venueId = venueId) : Touches venueId accepting r (supersede at_ r) :=
  .inr ⟨hvenue, rfl, rfl, rfl, .inr rfl, fun h => by cases h⟩

lemma touches_answer {decision : Decision} (hvenue : r.venueId = venueId) :
    Touches venueId (decision = .ACCEPT) r (answer decision at_ r) := by
  cases decision
  · exact .inr ⟨hvenue, rfl, rfl, rfl, .inl rfl, fun _ => .inr rfl⟩
  · exact .inr ⟨hvenue, rfl, rfl, rfl, .inl rfl, fun h => by cases h⟩

/-- The rules of the venue moved; nothing was added. -/
abbrev Turned (venueId : Uuid) (accepting : Prop) (t t' : Table SplitRule) : Prop :=
  Moves (σ := Rules) (Touches venueId accepting) t t'

/-! ### The calls -/

lemma writeAudit_alone {id : Uuid} {event actorType : String} {actorId : Option Uuid} {detail : Json} {u : Unit}
    (h : Alone fault (writeAudit id event actorType actorId detail) s (.ok u) s') :
    s'.table = s.table ∧ s'.rest = s.rest := alone_note h

/-- Rules that are found are closed one after the other; what was so of them still is when their turn comes. -/
lemma closeEach_moves {R : SplitRule → SplitRule → Prop} {P : SplitRule → Prop} (hrefl : ∀ r, R r r)
    (htrans : ∀ a b c, R a b → R b c → R a c) (hclose : ∀ r, P r → R r (supersede at_ r) ∧ P (supersede at_ r))
    {rules : List SplitRule} {u : Unit} (hrules : ∀ rule ∈ rules, ∀ r ∈ s.table.rows, r.id = rule.id → P r)
    (h : Alone fault (closeEach at_ except rules) s (.ok u) s') :
    Moves (σ := Rules) R s.table s'.table ∧ s'.rest = s.rest := by
  induction rules generalizing s with
  | nil =>
    obtain ⟨-, rfl⟩ := alone_ret h
    exact ⟨.refl hrefl _, rfl⟩
  | cons rule rules ih =>
    obtain ⟨closed, s₁, hupdate, hafter⟩ := alone_bind h
    rcases alone_update hupdate with ⟨rfl, -, -⟩ | ⟨r, t, rfl, hrow, htable, rfl⟩
    · exact (alone_raise hafter).elim
    obtain ⟨⟨⟩, s₂, hnote, hrest⟩ := alone_bind hafter
    obtain ⟨htable₂, hrest₂⟩ := writeAudit_alone hnote
    have hmem := row_filter hrow
    have hP : P r := hrules rule List.mem_cons_self r hmem.1 hmem.2.1
    have hfirst : Moves (σ := Rules) R s.table t := moves_update hrefl hrow (hclose r hP).1 htable
    have hstill : ∀ rule' ∈ rules, ∀ r' ∈ s₂.table.rows, r'.id = rule'.id → P r' := by
      intro rule' hrule' r' hr' hid
      rw [htable₂, Table.rows_update htable] at hr'
      obtain ⟨r₀, hr₀, rfl⟩ := List.mem_map.mp hr'
      split
      · exact (hclose r hP).2
      · rename_i hother
        rw [if_neg hother] at hid
        exact hrules rule' (List.mem_cons_of_mem _ hrule') r₀ hr₀ hid
    obtain ⟨hmoved, hsame⟩ := ih hstill hrest
    rw [htable₂] at hmoved
    exact ⟨hfirst.trans htrans hmoved, hsame.trans hrest₂⟩

lemma closeOutActive_moves {R : SplitRule → SplitRule → Prop} {P : SplitRule → Prop} (hrefl : ∀ r, R r r)
    (htrans : ∀ a b c, R a b → R b c → R a c) (hclose : ∀ r, P r → R r (supersede at_ r) ∧ P (supersede at_ r))
    (hout : ∀ r, isOutgoing venueId except r = true → P r) {u : Unit}
    (h : Alone fault (closeOutActive venueId at_ except) s (.ok u) s') :
    Moves (σ := Rules) R s.table s'.table ∧ s'.rest = s.rest := by
  obtain ⟨outgoing, s₁, hquery, hafter⟩ := alone_bind h
  obtain ⟨rfl, -, rfl⟩ := alone_query hquery
  refine closeEach_moves hrefl htrans hclose (fun rule hrule r hr hid => ?_) hafter
  obtain ⟨hmem, hcond⟩ := List.mem_filter.mp hrule
  obtain rfl : r = rule := Table.eq_of_key (k := .id r.id) hr hmem (by simp [Indexed.keys])
    (by simp [Indexed.keys, hid])
  exact hout r hcond

lemma closeOutActive_alone {u : Unit} (h : Alone fault (closeOutActive venueId at_ except) s (.ok u) s') :
    Turned venueId accepting s.table s'.table ∧ s'.rest = s.rest := by
  refine closeOutActive_moves (P := fun r => r.venueId = venueId) Touches.refl Touches.trans
    (fun r hvenue => ⟨touches_supersede hvenue, hvenue⟩) (fun r hout => ?_) h
  simp only [isOutgoing, Bool.and_eq_true, beq_iff_eq] at hout
  exact hout.1.1.1

/-- The table has the rows of one whose rules of the venue moved, and one rule more. -/
def Adds (venueId : Uuid) (rule : SplitRule) (t t' : Table SplitRule) : Prop :=
  ∃ t₁, Turned venueId False t t₁ ∧ t₁.insert rule = some t'

/-- **A proposal**: others of the venue are withdrawn, and a rule is added that is not in force. -/
theorem propose_alone {dto : CreateSplitRuleDto} {user : Uuid} {p : ProposedSplitRule}
    (h : Alone fault (propose hashToken dto user) s (.ok p) s') :
    (∃ bps w, p.rule = proposed hashToken dto bps user p.consentToken w) ∧
      Adds dto.venueId p.rule s.table s'.table ∧ s'.rest = s.rest := by
  obtain ⟨platformBps, s₁, hfee, h₁⟩ := alone_bind h
  obtain ⟨rfl, -⟩ := alone_query hfee
  dsimp only at h₁
  split at h₁
  · exact (alone_raise h₁).elim
  obtain ⟨entertainer, s₂, hentertainer, h₂⟩ := alone_bind h₁
  obtain ⟨rfl, -⟩ := alone_query hentertainer
  split at h₂
  · exact (alone_raise h₂).elim
  obtain ⟨link, s₃, hlink, h₃⟩ := alone_bind h₂
  obtain ⟨rfl, -⟩ := alone_query hlink
  split at h₃
  · exact (alone_raise h₃).elim
  obtain ⟨consentToken, s₄, htoken, h₄⟩ := alone_bind h₃
  obtain ⟨rfl, -⟩ := alone_query htoken
  obtain ⟨withdrawn, s₅, hwithdraw, h₅⟩ := alone_bind h₄
  obtain ⟨hmoved, hrest⟩ := alone_updateMany (σ := Rules) (R := Touches dto.venueId False) Touches.refl Touches.trans
    (fun r hr => touches_withdraw hr) hwithdraw
  obtain ⟨created, s₆, hinsert, h₆⟩ := alone_bind h₅
  obtain ⟨w, t, rfl, htable, rfl⟩ := alone_insert hinsert
  obtain ⟨⟨⟩, s₇, haudit, h₇⟩ := alone_bind h₆
  obtain ⟨htable₇, hrest₇⟩ := writeAudit_alone haudit
  obtain ⟨rfl, rfl⟩ := alone_ret h₇
  refine ⟨⟨platformBps, w, rfl⟩, ⟨_, hmoved, ?_⟩, hrest₇.trans hrest⟩
  rw [htable₇]
  exact htable

/-- **An override**: the venue's rules are closed, and a rule is added that nobody proposed. -/
theorem forceSet_alone {dto : OverrideSplitRuleDto} {user : Uuid} {rule : SplitRule}
    (h : Alone fault (forceSet dto user) s (.ok rule) s') :
    rule.venueId = dto.venueId ∧ rule.origin = .ADMIN_OVERRIDE ∧ rule.responseTokenHash = none ∧
      Adds dto.venueId rule s.table s'.table ∧ s'.rest = s.rest := by
  obtain ⟨now, s₁, hnow, h₁⟩ := alone_bind h
  obtain ⟨rfl, -⟩ := alone_query hnow
  obtain ⟨⟨⟩, s₂, hclose, h₂⟩ := alone_bind h₁
  obtain ⟨hmoved, hrest⟩ := closeOutActive_alone hclose
  obtain ⟨created, s₃, hinsert, h₃⟩ := alone_bind h₂
  obtain ⟨w, t, rfl, htable, rfl⟩ := alone_insert hinsert
  obtain ⟨⟨⟩, s₄, haudit, h₄⟩ := alone_bind h₃
  obtain ⟨htable₄, hrest₄⟩ := writeAudit_alone haudit
  obtain ⟨rfl, rfl⟩ := alone_ret h₄
  refine ⟨rfl, rfl, rfl, ⟨_, hmoved, ?_⟩, hrest₄.trans hrest⟩
  rw [htable₄]
  exact htable

lemma findByConsentToken_alone {id : Uuid} {token : String} {rule : SplitRule}
    (h : Alone fault (findByConsentToken hashToken id token) s (.ok rule) s') :
    s' = s ∧ rule ∈ s.table.rows ∧ rule.id = id ∧ rule.responseTokenHash = some (hashToken token) ∧
      rule.status = OPEN_PROPOSAL := by
  obtain ⟨found, s₁, hquery, h₁⟩ := alone_bind h
  obtain ⟨rfl, -, rfl⟩ := alone_query hquery
  split at h₁
  · exact (alone_raise h₁).elim
  rename_i found hfound
  split at h₁
  · exact (alone_raise h₁).elim
  rename_i hhash
  split at h₁
  · exact (alone_raise h₁).elim
  rename_i hopen
  obtain ⟨rfl, rfl⟩ := alone_ret h₁
  exact ⟨rfl, Table.mem_of_find hfound, eq_of_beq (Table.of_find hfound :), not_not.mp hhash, not_not.mp hopen⟩

/-- The end of an answer: it is recorded, and the rule read again. -/
lemma recorded_alone {id : Uuid} {event actorType : String} {actorId : Option Uuid} {detail : Json} {r : SplitRule}
    (h : Alone fault (do
      writeAudit id event actorType actorId detail
      let updated ← Call.query (.updated id) fun _ s => s.row id
      match updated with
      | none => .raise .recordNotFound
      | some updated => pure updated) s (.ok r) s') : s'.table = s.table ∧ s'.rest = s.rest := by
  obtain ⟨⟨⟩, s₁, haudit, h₁⟩ := alone_bind h
  obtain ⟨updated, s₂, hread, h₂⟩ := alone_bind h₁
  obtain ⟨rfl, -⟩ := alone_query hread
  split at h₂
  · exact (alone_raise h₂).elim
  obtain ⟨-, rfl⟩ := alone_ret h₂
  exact writeAudit_alone haudit

/-- What an answer to the proposal makes of a rule: the proposal itself is answered, and the venue's terms in force
give way to those accepted. -/
def AnsweredBy (proposal : SplitRule) (decision : Decision) (at_ : Time) (r r' : SplitRule) : Prop :=
  r' = r ∨ (r = proposal ∧ r' = answer decision at_ r) ∨
    decision = .ACCEPT ∧ r.id ≠ proposal.id ∧ r.venueId = proposal.venueId ∧ r.status = .ACTIVE ∧ r' = supersede at_ r

section AnsweredBy

variable {proposal : SplitRule} {decision : Decision}

lemma answer_id : (answer decision at_ r).id = r.id := by cases decision <;> rfl

lemma answer_status : (answer decision at_ r).status ≠ OPEN_PROPOSAL := by
  cases decision <;> exact SplitRuleStatus.noConfusion

lemma AnsweredBy.trans (hopen : proposal.status = OPEN_PROPOSAL) (a b c : SplitRule)
    (h : AnsweredBy proposal decision at_ a b) (h' : AnsweredBy proposal decision at_ b c) :
    AnsweredBy proposal decision at_ a c := by
  rcases h' with rfl | ⟨rfl, rfl⟩ | ⟨haccept, hid, hvenue, hactive, rfl⟩
  · exact h
  · -- the proposal is answered once
    rcases h with rfl | ⟨rfl, hb⟩ | ⟨-, hid, -, -, hb⟩
    · exact .inr (.inl ⟨rfl, rfl⟩)
    · rw [hb] at hopen
      exact absurd hopen answer_status
    · exact absurd (congrArg SplitRule.id hb).symm hid
  · rcases h with rfl | ⟨rfl, rfl⟩ | ⟨-, -, -, -, rfl⟩
    · exact .inr (.inr ⟨haccept, hid, hvenue, hactive, rfl⟩)
    · exact absurd answer_id hid
    · cases hactive

lemma AnsweredBy.touches (h : AnsweredBy proposal decision at_ r r') :
    Touches proposal.venueId (decision = .ACCEPT) r r' := by
  rcases h with rfl | ⟨rfl, rfl⟩ | ⟨-, -, hvenue, -, rfl⟩
  · exact .refl _
  · exact touches_answer rfl
  · exact touches_supersede hvenue

end AnsweredBy

/-- **An answer**: to a proposal that is still open, by the token it was made with; and what it makes of the rules. -/
theorem respond_answers {id : Uuid} {token : String} {decision : Decision} {r : SplitRule}
    (h : Alone fault (respond hashToken id token decision) s (.ok r) s') :
    ∃ rule ∈ s.table.rows, rule.id = id ∧ rule.responseTokenHash = some (hashToken token) ∧
      rule.status = OPEN_PROPOSAL ∧ (∃ at_, Moves (σ := Rules) (AnsweredBy rule decision at_) s.table s'.table) ∧
      s'.rest = s.rest := by
  obtain ⟨rule, s₁, hfind, h₁⟩ := alone_bind h
  obtain ⟨rfl, hmem, hid, hhash, hopen⟩ := findByConsentToken_alone hfind
  refine ⟨rule, hmem, hid, hhash, hopen, ?_⟩
  obtain ⟨now, s₂, hnow, h₂⟩ := alone_bind h₁
  obtain ⟨rfl, -⟩ := alone_query hnow
  obtain ⟨claimed, s₃, hclaim, h₃⟩ := alone_bind h₂
  rcases alone_update hclaim with ⟨rfl, -, -⟩ | ⟨r₀, t, rfl, hrow, htable, rfl⟩
  · exact (alone_raise h₃).elim
  obtain ⟨hmem₀, hid₀, -⟩ := row_filter hrow
  obtain rfl : r₀ = rule := Table.eq_of_key (k := .id r₀.id) hmem₀ hmem (by simp [Indexed.keys])
    (by simp [Indexed.keys, ← show r₀.id = rule.id from hid₀])
  have hanswered : Moves (σ := Rules) (AnsweredBy r₀ decision now) s₂.table t :=
    moves_update (fun _ => .inl rfl) hrow (.inr (.inl ⟨rfl, rfl⟩)) htable
  split at h₃
  · exact (alone_raise h₃).elim
  dsimp only at h₃
  split at h₃
  · rename_i haccept
    obtain ⟨⟨⟩, s₄, hclose, h₄⟩ := alone_bind h₃
    have hclosed := closeOutActive_moves (R := AnsweredBy r₀ decision now)
      (P := fun r => r.id ≠ r₀.id ∧ r.venueId = r₀.venueId ∧ (r.status = .ACTIVE ∨ supersede now r = r))
      (fun _ => .inl rfl) (AnsweredBy.trans hopen) (fun r hr => ?_) (fun r hout => ?_) hclose
    · obtain ⟨htable₄, hrest₄⟩ := recorded_alone h₄
      rw [htable₄]
      exact ⟨⟨now, hanswered.trans (AnsweredBy.trans hopen) hclosed.1⟩, hrest₄.trans hclosed.2⟩
    · refine ⟨?_, hr.1, hr.2.1, .inr rfl⟩
      rcases hr.2.2 with hactive | hclosed
      · exact .inr (.inr ⟨haccept, hr.1, hr.2.1, hactive, rfl⟩)
      · exact .inl hclosed
    · simp only [isOutgoing, Bool.and_eq_true, beq_iff_eq, bne_iff_ne, ne_eq, Option.some.injEq] at hout
      exact ⟨hout.2, hout.1.1.1, .inl hout.1.1.2⟩
  · obtain ⟨htable₄, hrest₄⟩ := recorded_alone h₃
    rw [htable₄]
    exact ⟨⟨now, hanswered⟩, hrest₄⟩

/-- Of the rules of the venue; only an acceptance puts one in force. -/
theorem respond_alone {id : Uuid} {token : String} {decision : Decision} {r : SplitRule}
    (h : Alone fault (respond hashToken id token decision) s (.ok r) s') :
    ∃ rule ∈ s.table.rows, rule.id = id ∧ rule.responseTokenHash = some (hashToken token) ∧
      rule.status = OPEN_PROPOSAL ∧ Turned rule.venueId (decision = .ACCEPT) s.table s'.table ∧
      s'.rest = s.rest := by
  obtain ⟨rule, hmem, hid, hhash, hopen, ⟨at_, hmoves⟩, hrest⟩ := respond_answers h
  exact ⟨rule, hmem, hid, hhash, hopen, hmoves.imp fun _ _ ha => ha.touches, hrest⟩

end Splitcore.SplitRules
