import Splitcore.SplitRules.Lifecycle

/-!
The calls keep to the discipline, whatever the others commit in between.
-/

namespace Splitcore.SplitRules

open Relational Isolation

variable {hashToken : String → String} {s : Store Rules} {k : Work Rules} {venueId : Uuid} {at_ : Time}
  {except : Option Uuid}

/-- The call keeps to the discipline, and ends in `Q`. -/
abbrev Keeps (hashToken : String → String) {α : Type} (Q : Store Rules → Work Rules → α → Prop)
    (c : Call Rules α) (s : Store Rules) (k : Work Rules) : Prop :=
  Obeys (lifecycle hashToken) Q c s k

/-! ### Closing what is in force -/

/-- Rules of the venue that came into force, to be closed. -/
def Closable (venueId : Uuid) (closed : List SplitRule) : Prop :=
  ∀ r ∈ closed, HasBeenActive r ∧ r.venueId = venueId

/-- **Closing rules one after the other** makes a version of each, of whatever it is by then. -/
theorem closeEach_keeps {rules : List SplitRule} (hids : (rules.map SplitRule.id).Nodup)
    (hnew : ∀ r ∈ rules, k.wrote r.id = none)
    (hknown : ∀ r ∈ rules, ∃ r', s.row r.id = some r' ∧ HasBeenActive r' ∧ r'.venueId = venueId) :
    Keeps hashToken (fun _ k' _ => k'.reads = k.reads ∧ ∃ closed : List SplitRule,
      closed.map SplitRule.id = rules.map SplitRule.id ∧ Closable venueId closed ∧
      k'.writes = k.writes ++ versions (supersede at_) closed) (closeEach at_ except rules) s k := by
  induction rules generalizing s k with
  | nil => exact ⟨rfl, [], rfl, by simp [Closable], by simp [versions]⟩
  | cons rule rules ih =>
    rw [List.map_cons, List.nodup_cons] at hids
    rw [closeEach, Call.bind_eq]
    refine obeys_update (fun s' v r hlater _ hsees hr _ => ⟨rfl, ?_⟩) fun _ _ => trivial
    have hrule : k.wrote rule.id = none := hnew rule (by simp)
    have hrid : r.id = rule.id := (row_eq_some.mp hr).2
    -- what the rule has become since it was found
    have hactive : HasBeenActive r ∧ r.venueId = venueId := by
      obtain ⟨r₀, hr₀, hactive, hvenue⟩ := hknown rule (by simp)
      obtain ⟨r₁, hr₁, hevolves⟩ := hlater _ _ hr₀
      rw [hsees.row, hrule] at hr
      obtain rfl : r₁ = r := Option.some.inj (hr₁.symm.trans hr)
      exact ⟨hevolves.hasBeenActive hactive, (congrArg Prod.fst hevolves.terms).trans hvenue⟩
    have hrecord : record k.writes ⟨some r, supersede at_ r⟩ =
        k.writes ++ [⟨some r, supersede at_ r⟩] := record_of_new fun w hw => by
      rw [show Rules.id (supersede at_ r) = rule.id from hrid]
      exact wrote_eq_none.mp hrule w hw
    rw [hrecord]
    refine obeys_note fun w => (ih hids.2 (fun r' hr' => ?_) fun r' hr' => ?_).mono ?_
    · refine (wrote_append rfl).mpr ⟨wrote_eq_none.mp (hnew r' (by simp [hr'])), fun w hw => ?_⟩
      rw [List.mem_singleton.mp hw]
      show r.id ≠ r'.id
      rw [hrid]
      exact fun heq => hids.1 (heq ▸ List.mem_map_of_mem hr')
    · obtain ⟨r₀, hr₀, hactive₀, hvenue₀⟩ := hknown r' (by simp [hr'])
      obtain ⟨r₁, hr₁, hevolves⟩ := hlater _ _ hr₀
      exact ⟨r₁, hr₁, hevolves.hasBeenActive hactive₀,
        (congrArg Prod.fst hevolves.terms).trans hvenue₀⟩
    · rintro s'' k' a ⟨hreads, closed, hclosed, hclosable, hwrites⟩
      refine ⟨hreads, r :: closed, ?_, List.forall_mem_cons.mpr ⟨hactive, hclosable⟩, ?_⟩
      · rw [List.map_cons, List.map_cons, hclosed, hrid]
      · rw [hwrites]; simp [versions]

/-- What `closeOutActive` has done. -/
structure ClosedOut (venueId : Uuid) (at_ : Time) (except : Option Uuid) (k k' : Work Rules)
    (closed : List SplitRule) : Prop where
  closable : Closable venueId closed
  writes : k'.writes = k.writes ++ versions (supersede at_) closed
  found : ∃ view, (Site.outgoing venueId, view) ∈ k'.reads ∧
    ∀ r ∈ view.table.rows, InForce venueId r → some r.id = except ∨ ∃ c ∈ closed, c.id = r.id

theorem closeOutActive_keeps (hwrites : ∀ w ∈ k.writes, some w.after.id = except) :
    Keeps hashToken (fun _ k' _ => ∃ closed, ClosedOut venueId at_ except k k' closed)
      (closeOutActive venueId at_ except) s k := by
  refine obeys_query fun w s' v hlater hinv hsees => ?_
  have hout : ∀ r ∈ v.table.rows.filter (isOutgoing venueId except),
      r ∈ v.table.rows ∧ InForce venueId r ∧ some r.id ≠ except := by
    intro r hr
    obtain ⟨hmem, hcond⟩ := List.mem_filter.mp hr
    exact ⟨hmem, isOutgoing_iff.mp hcond⟩
  have hnone : ∀ r ∈ v.table.rows.filter (isOutgoing venueId except), k.wrote r.id = none := by
    intro r hr
    refine wrote_eq_none.mpr fun w hw heq => (hout r hr).2.2 ?_
    rw [← show w.after.id = r.id from heq]
    exact hwrites w hw
  have hids : ((v.table.rows.filter (isOutgoing venueId except)).map SplitRule.id).Nodup :=
    nodup_ids (σ := Rules) _ _
  have hknown : ∀ r ∈ v.table.rows.filter (isOutgoing venueId except),
      ∃ r', s'.row r.id = some r' ∧ HasBeenActive r' ∧ r'.venueId = venueId := by
    intro r hr
    obtain ⟨hmem, ⟨hvenue, hactive, -⟩, -⟩ := hout r hr
    have hrow := hsees.row r.id
    rw [show v.row r.id = some r from row_of_mem hmem, hnone r hr] at hrow
    exact ⟨r, hrow.symm, .inl hactive, hvenue⟩
  refine Obeys.mono (closeEach_keeps (k := { k with reads := k.reads ++ [(Site.outgoing venueId, v)] })
    hids hnone hknown) ?_
  rintro s'' k' a ⟨hreads, closed, hclosed, hclosable, hk⟩
  refine ⟨closed, hclosable, hk, v, ?_, fun r hr hforce => ?_⟩
  · rw [hreads]; simp
  · by_cases hexcept : some r.id = except
    · exact .inl hexcept
    · have hmem : r.id ∈ closed.map SplitRule.id := by
        rw [hclosed]
        exact List.mem_map_of_mem (List.mem_filter.mpr ⟨hr, isOutgoing_iff.mpr ⟨hforce, hexcept⟩⟩)
      obtain ⟨c, hc, hid⟩ := List.mem_map.mp hmem
      exact .inr ⟨c, hc, hid⟩

/-! ### What has been done in the end -/

lemma not_inForce_superseded {r : SplitRule} : ¬ InForce venueId (supersede at_ r) := nofun

/-- What was done is known from what was written, and found. -/
lemma Does.mono {op : Operation} {k' : Work Rules} (h : Does hashToken op k)
    (hwrites : k'.writes = k.writes) (hreads : ∀ x ∈ k.reads, x ∈ k'.reads) :
    Does hashToken op k' := by
  refine ⟨hwrites ▸ h.changed, hwrites ▸ h.created, hwrites ▸ h.answers, hwrites ▸ h.replaces,
    hwrites ▸ h.single, fun v w hw hv => ?_⟩
  rw [hwrites] at hw ⊢
  obtain ⟨view, hview, hfound⟩ := h.closes v w hw hv
  exact ⟨view, hreads _ hview, hfound⟩

/-- A rejection. -/
lemma does_rejected {id : Uuid} {token : String} {r : SplitRule} (hid : r.id = id)
    (hopen : r.status = OPEN_PROPOSAL) (htoken : r.responseTokenHash = some (hashToken token))
    (hwrites : k.writes = [⟨some r, answer .REJECT at_ r⟩]) :
    Does hashToken (.respond id token .REJECT) k := by
  have hone : ∀ w ∈ k.writes, w = ⟨some r, answer .REJECT at_ r⟩ := by simp [hwrites]
  refine ⟨fun w hw r' hb => ?_, fun w hw hb => ?_, fun id' token' decision' hop => ?_,
    fun w hw hsuperseded => ?_, fun v w hw w' hw' _ _ => ?_, fun v w hw hv => ?_⟩
  · obtain rfl := hone w hw
    cases hb
    exact .answered hid hopen htoken
  · obtain rfl := hone w hw
    cases hb
  · cases hop
    exact ⟨⟨some r, answer .REJECT at_ r⟩, by simp [hwrites], r, at_, rfl, hid, rfl, hopen, htoken⟩
  · obtain rfl := hone w hw
    cases hsuperseded
  · rw [hone w hw, hone w' hw']
  · obtain rfl := hone w hw
    cases hv.2.1

/-- A call that made one new rule be in force, and closed what it found. -/
lemma ClosedOut.does {op : Operation} {k₀ k' : Work Rules} {closed : List SplitRule}
    {incoming : Write Rules} (h : ClosedOut venueId at_ except k₀ k closed)
    (hreads : ∀ x ∈ k.reads, x ∈ k'.reads)
    (hwrites : ∀ w, w ∈ k'.writes ↔ w = incoming ∨ w ∈ versions (supersede at_) closed)
    (hforce : InForce venueId incoming.after)
    (hexcept : ∀ id, except = some id → incoming.after.id = id)
    (hchanged : ∀ r, incoming.before = some r → Changed hashToken op r incoming.after)
    (hcreated : incoming.before = none → Created hashToken op incoming.after)
    (hanswers : ∀ id token decision, op = .respond id token decision →
      ∃ r now, incoming.before = some r ∧ r.id = id ∧ incoming.after = answer decision now r ∧
        r.status = OPEN_PROPOSAL ∧ r.responseTokenHash = some (hashToken token)) :
    Does hashToken op k' := by
  have hcases : ∀ w ∈ k'.writes, w = incoming ∨ ∃ r ∈ closed, w = ⟨some r, supersede at_ r⟩ :=
    fun w hw => ((hwrites w).mp hw).imp_right mem_versions.mp
  have hin : incoming ∈ k'.writes := (hwrites incoming).mpr (.inl rfl)
  have honly : ∀ v, ∀ w ∈ k'.writes, InForce v w.after → w = incoming := by
    intro v w hw hv
    rcases hcases w hw with heq | ⟨r, -, rfl⟩
    · exact heq
    · exact absurd hv not_inForce_superseded
  refine ⟨fun w hw r hb => ?_, fun w hw hb => ?_, fun id token decision hop => ?_,
    fun w hw hsuperseded => ?_, fun v w hw w' hw' hv hv' => ?_, fun v w hw hv => ?_⟩
  · rcases hcases w hw with rfl | ⟨r', hr', rfl⟩
    · exact hchanged r hb
    · cases hb; exact .superseded (h.closable r hr').1
  · rcases hcases w hw with rfl | ⟨r', hr', rfl⟩
    · exact hcreated hb
    · cases hb
  · obtain ⟨r, now, hr⟩ := hanswers id token decision hop
    exact ⟨incoming, hin, r, now, hr⟩
  · rcases hcases w hw with rfl | ⟨r', hr', rfl⟩
    · rw [hforce.2.1] at hsuperseded; cases hsuperseded
    · refine ⟨incoming, hin, ?_⟩
      rw [show (supersede at_ r').venueId = venueId from (h.closable r' hr').2]
      exact hforce
  · rw [honly v w hw hv, honly v w' hw' hv']
  · obtain rfl : w = incoming := honly v w hw hv
    obtain rfl : venueId = v := hforce.1.symm.trans hv.1
    obtain ⟨view, hview, hfound⟩ := h.found
    refine ⟨view, hreads _ hview, fun r hr hrv => ?_⟩
    rcases hfound r hr hrv with hid | ⟨c, hc, hid⟩
    · exact ⟨w, hin, hexcept r.id hid.symm⟩
    · exact ⟨⟨some c, supersede at_ c⟩, (hwrites _).mpr (.inr (mem_versions.mpr ⟨c, hc, rfl⟩)), hid⟩

/-- **An override.** -/
theorem forceSet_keeps {dto : OverrideSplitRuleDto} {user : Uuid} :
    Keeps hashToken (fun _ k _ => Does hashToken (.override dto user) k) (forceSet dto user) s {} := by
  refine obeys_query fun w s₁ v₁ _ _ _ => ?_
  refine obeys_bind.mpr (Obeys.mono (closeOutActive_keeps (by simp)) ?_)
  rintro s₂ k₂ - ⟨closed, hclosed⟩
  refine obeys_insert fun w' s' v hlater hinv hsees hfree => obeys_note fun w'' => ?_
  have hnew : ∀ w₀ ∈ k₂.writes, w₀.after.id ≠ w'.uuid :=
    wrote_eq_none.mp (hsees.wrote_none hfree)
  have hwrites : ∀ w₀, w₀ ∈ record k₂.writes ⟨none, overriding dto user w.now w'⟩ ↔
      w₀ = ⟨none, overriding dto user w.now w'⟩ ∨ w₀ ∈ versions (supersede w.now) closed := by
    intro w₀
    rw [record_of_new hnew, hclosed.writes]
    simp [or_comm]
  exact hclosed.does (fun x hx => hx) hwrites ⟨rfl, rfl, rfl⟩ (fun _ h => by cases h)
    (fun _ h => by cases h) (fun _ => .overriding) fun _ _ _ h => by cases h

/-- A proposal that was open when it was looked up, and its token. -/
structure Proposal (hashToken : String → String) (splitRuleId : Uuid) (token : String)
    (s : Store Rules) (rule : SplitRule) : Prop where
  row : s.row splitRuleId = some rule
  id : rule.id = splitRuleId
  token : rule.responseTokenHash = some (hashToken token)

lemma findByConsentToken_keeps {splitRuleId : Uuid} {token : String} (hk : k.writes = []) :
    Keeps hashToken (fun s' k' rule => k'.writes = [] ∧ Proposal hashToken splitRuleId token s' rule)
      (findByConsentToken hashToken splitRuleId token) s k := by
  refine obeys_query fun w s' v _ _ hsees => ?_
  rcases hfound : v.row splitRuleId with _ | rule
  · trivial
  have hid : rule.id = splitRuleId := (row_eq_some.mp hfound).2
  have hnone : k.wrote splitRuleId = none := wrote_eq_none.mpr (by simp [hk])
  simp only
  split
  · trivial
  split
  · trivial
  · rename_i htoken _
    rw [hsees.row, hnone] at hfound
    exact ⟨hk, hfound, hid, by simpa using htoken⟩

/-- The audit and the answer of a call change no rule. -/
lemma audited_keeps {α : Type} {op : Operation} {id : Uuid} {event actorType : String}
    {actorId : Option Uuid} {detail : Json} {site : Site} {g : Draw → Store Rules → Option SplitRule}
    {f : Option SplitRule → Call Rules α} (h : Does hashToken op k)
    (hf : ∀ o s' k', Does hashToken op k' → Keeps hashToken (fun _ k _ => Does hashToken op k) (f o) s' k') :
    Keeps hashToken (fun _ k _ => Does hashToken op k)
      ((writeAudit id event actorType actorId detail).bind fun _ => (Call.query site g).bind f) s k :=
  obeys_note fun _ => obeys_query fun _ _ _ _ _ _ =>
    hf _ _ _ (h.mono rfl fun _ hx => List.mem_append_left _ hx)

/-- **An answer.** -/
theorem respond_keeps {splitRuleId : Uuid} {token : String} {decision : Decision} :
    Keeps hashToken (fun _ k _ => Does hashToken (.respond splitRuleId token decision) k)
      (respond hashToken splitRuleId token decision) s {} := by
  refine obeys_bind.mpr (Obeys.mono (findByConsentToken_keeps rfl) ?_)
  rintro s₁ k₁ rule ⟨hk₁, hproposal⟩
  refine obeys_query fun w s₂ v₂ hlater₁ _ _ => ?_
  refine obeys_update (fun s₃ v₃ r hlater₂ hinv hsees hr hopen => ⟨?_, ?_⟩) fun _ _ => trivial
  · cases decision <;> rfl
  have hrule : rule.id = splitRuleId := hproposal.id
  have hrid : r.id = rule.id := (row_eq_some.mp hr).2
  have hstatus : r.status = OPEN_PROPOSAL := eq_of_beq hopen
  have hnone : Work.wrote { k₁ with reads := k₁.reads ++ [(Site.begin, v₂)] } rule.id = none :=
    wrote_eq_none.mpr (by simp [hk₁])
  rw [hsees.row, hnone] at hr
  have hevolves : Evolves rule r := by
    obtain ⟨r₂, hr₂, hevolves₁⟩ := hlater₁ _ _ hproposal.row
    obtain ⟨r₃, hr₃, hevolves₂⟩ := hlater₂ _ _ hr₂
    rw [hrule] at hr
    obtain rfl : r₃ = r := Option.some.inj (hr₃.symm.trans hr)
    exact hevolves₁.trans hevolves₂
  -- the proposal is still open, so its token is the one that was checked, and it has no end
  have htoken : r.responseTokenHash = some (hashToken token) :=
    (hevolves.token hstatus).trans hproposal.token
  have hto : r.effectiveTo = none := by
    by_contra hto
    cases ((hinv r (row_eq_some.mp hr).1).ends hto).symm.trans hstatus
  have hvenue : r.venueId = rule.venueId := congrArg Prod.fst hevolves.terms
  have hwrites : record k₁.writes ⟨some r, answer decision w.now r⟩ =
      [⟨some r, answer decision w.now r⟩] := by rw [hk₁]; rfl
  rw [hwrites, Option.isNone_some, if_neg Bool.false_ne_true]
  have hchanged : Changed hashToken (.respond splitRuleId token decision) r (answer decision w.now r) :=
    .answered (hrid.trans hrule) hstatus htoken
  cases decision with
  | REJECT =>
    refine audited_keeps (does_rejected (hrid.trans hrule) hstatus htoken rfl) fun o s k hdoes => ?_
    cases o
    · trivial
    · exact hdoes
  | ACCEPT =>
    refine obeys_bind.mpr (Obeys.mono (closeOutActive_keeps ?_) ?_)
    · intro w₀ hw₀
      rw [List.mem_singleton.mp hw₀]
      exact congrArg some hrid
    rintro s₄ k₄ - ⟨closed, hclosed⟩
    have hk₄ : ∀ w₀, w₀ ∈ k₄.writes ↔ w₀ = ⟨some r, answer .ACCEPT w.now r⟩ ∨
        w₀ ∈ versions (supersede w.now) closed := by
      intro w₀
      rw [hclosed.writes]
      simp
    refine audited_keeps (hclosed.does (fun x hx => hx) hk₄ ⟨hvenue, rfl, hto⟩ (fun id hid => ?_)
      (fun r₀ hr₀ => ?_) (fun hb => by cases hb) fun id' token' decision' hop => ?_) fun o s k hdoes => ?_
    · cases hid
      exact hrid
    · cases hr₀
      exact hchanged
    · cases hop
      exact ⟨r, w.now, rfl, hrid.trans hrule, rfl, hstatus, htoken⟩
    · cases o
      · trivial
      · exact hdoes

/-- A proposal: what was open is withdrawn, and a new one is there. -/
lemma does_proposed {dto : CreateSplitRuleDto} {user : Uuid} {platformBps : ℤ} {token : String}
    {w : Draw} {rows : List SplitRule} (hrows : ∀ r ∈ rows, isOpen dto.venueId r = true)
    (hwrites : k.writes =
      versions withdraw rows ++ [⟨none, proposed hashToken dto platformBps user token w⟩]) :
    Does hashToken (.propose dto user) k := by
  have hcases : ∀ w₀ ∈ k.writes, (∃ r ∈ rows, w₀ = ⟨some r, withdraw r⟩) ∨
      w₀ = ⟨none, proposed hashToken dto platformBps user token w⟩ := by
    intro w₀ hw₀
    rw [hwrites, List.mem_append, mem_versions, List.mem_singleton] at hw₀
    exact hw₀
  have hpending : ∀ v, ∀ w₀ ∈ k.writes, ¬ InForce v w₀.after := by
    intro v w₀ hw₀ hv
    rcases hcases w₀ hw₀ with ⟨r, -, rfl⟩ | rfl
    · cases hv.2.1
    · cases hv.2.1
  refine ⟨fun w₀ hw₀ r hb => ?_, fun w₀ hw₀ hb => ?_, (fun _ _ _ hop => by cases hop),
    fun w₀ hw₀ hsuperseded => ?_, fun v w₀ hw₀ _ _ hv => absurd hv (hpending v w₀ hw₀),
    fun v w₀ hw₀ hv => absurd hv (hpending v w₀ hw₀)⟩
  · rcases hcases w₀ hw₀ with ⟨r', hr', rfl⟩ | rfl
    · cases hb; exact .withdrawn (hrows r hr')
    · cases hb
  · rcases hcases w₀ hw₀ with ⟨r', hr', rfl⟩ | rfl
    · cases hb
    · exact .proposed
  · rcases hcases w₀ hw₀ with ⟨r', hr', rfl⟩ | rfl
    · cases hsuperseded
    · cases hsuperseded

/-- **A proposal.** -/
theorem propose_keeps {dto : CreateSplitRuleDto} {user : Uuid} :
    Keeps hashToken (fun _ k _ => Does hashToken (.propose dto user) k)
      (propose hashToken dto user) s {} := by
  refine obeys_query fun w₁ s₁ v₁ _ _ _ => ?_
  simp only
  split
  · trivial
  refine obeys_query fun w₂ s₂ v₂ _ _ _ => ?_
  split
  · trivial
  refine obeys_query fun w₃ s₃ v₃ _ _ _ => ?_
  split
  · trivial
  refine obeys_query fun w₄ s₄ v₄ _ _ _ => ?_
  refine obeys_bind.mpr (obeys_query fun w₅ s₅ v₅ _ _ _ => ?_)
  have hids : ((v₅.table.rows.filter (isOpen dto.venueId)).map Rules.id).Nodup := nodup_ids _ _
  refine Obeys.mono (obeys_updateEach (f := withdraw) (fun _ => rfl) hids fun id _ => rfl) ?_
  rintro s₆ k₆ n ⟨-, hreads, -, rows, hrows, hwrites, -⟩
  refine obeys_insert fun w s' v _ _ hsees hfree => obeys_note fun w' => ?_
  have hnew : ∀ w₀ ∈ k₆.writes, w₀.after.id ≠ w.uuid :=
    wrote_eq_none.mp (hsees.wrote_none hfree)
  have hk : ∀ platformBps token, record k₆.writes
      ⟨none, proposed hashToken dto platformBps user token w⟩ = versions withdraw rows ++
        [⟨none, proposed hashToken dto platformBps user token w⟩] := by
    intro platformBps token
    rw [record_of_new hnew, hwrites]
    rfl
  exact does_proposed hrows (hk _ _)

/-- **Every call keeps to the discipline.** -/
theorem call_keeps (op : Operation) (s : Store Rules) :
    Keeps hashToken (fun _ k _ => Does hashToken op k) (op.call hashToken) s {} := by
  cases op with
  | propose dto user => exact obeys_bind.mpr propose_keeps
  | override dto user => exact obeys_bind.mpr forceSet_keeps
  | respond id token decision => exact obeys_bind.mpr respond_keeps

end Splitcore.SplitRules
