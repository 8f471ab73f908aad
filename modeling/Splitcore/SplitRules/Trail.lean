import Splitcore.Isolation.Promises
import Splitcore.SplitRules.Consent

/-!
The audit trail of a rule: which of its status changes it records, and what can be told from it.
-/

namespace Splitcore.SplitRules

open Relational Isolation

/-! ### The trail -/

def findAuditTrail (rank : Uuid → ℕ) (splitRuleId : Uuid) (s : Store Rules) : List SplitRuleAuditEvent :=
  (s.notes.filter (·.splitRuleId == splitRuleId)).insertionSort fun a b =>
    a.createdAt < b.createdAt ∨ a.createdAt = b.createdAt ∧ rank a.id ≤ rank b.id

/-- The name of the change from one status to another. -/
def nameOf (before : Option SplitRuleStatus) (after : SplitRuleStatus) : String :=
  match after with
  | .PENDING_ENTERTAINER_APPROVAL => "PROPOSED"
  | .ACTIVE => if before.isNone then "ADMIN_OVERRIDE" else "ACCEPTED"
  | .REJECTED => "REJECTED"
  | .SUPERSEDED => "SUPERSEDED"
  | .WITHDRAWN => "WITHDRAWN"

/-- The event the governance migration wrote for a rule it found. -/
def backfill (r : SplitRule) (id : Uuid) (createdAt : Time) : SplitRuleAuditEvent :=
  { id, splitRuleId := r.id, event := "BACKFILLED_PRE_GOVERNANCE", actorType := "SYSTEM", actorId := none
    detail := .obj [
      ("note", .str ("Existing rule predates entertainer consent; labelled ADMIN_OVERRIDE because no " ++
        "entertainer ever agreed to it.")),
      ("status", .str (if r.status = .ACTIVE then "ACTIVE" else "SUPERSEDED"))]
    createdAt }

/-- The status an event leaves its rule in. -/
def leaves (n : SplitRuleAuditEvent) : Option SplitRuleStatus :=
  match n.event with
  | "PROPOSED" => some .PENDING_ENTERTAINER_APPROVAL
  | "ADMIN_OVERRIDE" | "ACCEPTED" => some .ACTIVE
  | "REJECTED" => some .REJECTED
  | "SUPERSEDED" => some .SUPERSEDED
  | "WITHDRAWN" => some .WITHDRAWN
  | "BACKFILLED_PRE_GOVERNANCE" => match n.detail with
    | .obj [_, (_, .str "ACTIVE")] => some .ACTIVE
    | _ => some .SUPERSEDED
  | _ => none

/-- What can be told from a trail: the last status on a rule's way through life that some event left
it in. -/
def statusFrom (trail : List SplitRuleAuditEvent) : Option SplitRuleStatus :=
  [SplitRuleStatus.SUPERSEDED, .ACTIVE, .REJECTED, .WITHDRAWN, .PENDING_ENTERTAINER_APPROVAL].find?
    fun status => trail.any fun n => leaves n == some status

/-- The trail of every rule tells its status. -/
def Tells (s : Store Rules) : Prop :=
  ∀ r ∈ s.table.rows, ∀ rank, statusFrom (findAuditTrail rank r.id s) = some r.status

/-- Every change of a rule's status comes with exactly one new event on that rule, which names it. -/
def ChangesNamed (s s' : Store Rules) : Prop :=
  ∀ r ∈ s'.table.rows, (s.row r.id).map (·.status) ≠ some r.status →
    ∃ added n, s'.notes = s.notes ++ added ∧ added.filter (·.splitRuleId == r.id) = [n] ∧
      n.event = nameOf ((s.row r.id).map (·.status)) r.status

/-- As the governance migration leaves the trail. -/
structure Backfilled (s : Store Rules) : Prop where
  each : ∀ r ∈ s.table.rows, ∃ id createdAt,
    s.notes.filter (·.splitRuleId == r.id) = [backfill r id createdAt]
  about : ∀ n ∈ s.notes, s.row n.splitRuleId ≠ none

/-! ### What a call notes -/

variable {hashToken : String → String} {D : Discipline Rules Operation} {s s' v : Store Rules}
  {k : Work Rules} {venueId : Uuid} {at_ : Time} {except : Option Uuid} {op : Operation}

/-- What an event is on, and its name. -/
def stamp (n : SplitRuleAuditEvent) : Uuid × String := (n.splitRuleId, n.event)

/-- What the event for a version would be on, and its name. -/
def stampFor (w : Write Rules) : Uuid × String :=
  (w.after.id, nameOf (w.before.map (·.status)) w.after.status)

/-- The calls note each version they make, but for those that withdraw a proposal. -/
def Noted (k : Work Rules) : Prop :=
  (k.notes.map stamp).Perm ((k.writes.filter (·.after.status != .WITHDRAWN)).map stampFor)

/-- Closing rules notes each. -/
lemma closeEach_notes {rules : List SplitRule} (hids : (rules.map SplitRule.id).Nodup)
    (hnew : ∀ r ∈ rules, k.wrote r.id = none) :
    Obeys D (fun _ k' _ => ∃ closed : List SplitRule,
      closed.map SplitRule.id = rules.map SplitRule.id ∧
      k'.writes = k.writes ++ versions (supersede at_) closed ∧
      k'.notes.map stamp = k.notes.map stamp ++ (versions (supersede at_) closed).map stampFor)
      (closeEach at_ except rules) s k := by
  induction rules generalizing s k with
  | nil => exact ⟨[], rfl, by simp [versions], by simp [versions]⟩
  | cons rule rules ih =>
    rw [List.map_cons, List.nodup_cons] at hids
    rw [closeEach, Call.bind_eq]
    refine obeys_update (fun s' v r hlater _ hsees hr _ => ⟨rfl, ?_⟩) fun _ _ => trivial
    have hrid : r.id = rule.id := (row_eq_some.mp hr).2
    have hrule : k.wrote rule.id = none := hnew rule (by simp)
    have hrecord : record k.writes ⟨some r, supersede at_ r⟩ =
        k.writes ++ [⟨some r, supersede at_ r⟩] := record_of_new fun w hw => by
      rw [show Rules.id (supersede at_ r) = rule.id from hrid]
      exact wrote_eq_none.mp hrule w hw
    rw [hrecord]
    refine obeys_note fun w => (ih hids.2 fun r' hr' => ?_).mono ?_
    · refine (wrote_append rfl).mpr ⟨wrote_eq_none.mp (hnew r' (by simp [hr'])), fun w hw => ?_⟩
      rw [List.mem_singleton.mp hw]
      show r.id ≠ r'.id
      rw [hrid]
      exact fun heq => hids.1 (heq ▸ List.mem_map_of_mem hr')
    · rintro s'' k' a ⟨closed, hclosed, hwrites, hnotes⟩
      refine ⟨r :: closed, by rw [List.map_cons, List.map_cons, hclosed, hrid], ?_, ?_⟩
      · rw [hwrites]; simp [versions]
      · rw [hnotes]
        simp [versions, stamp, stampFor, nameOf, supersede, hrid]

lemma closeOutActive_notes (hwrites : ∀ w ∈ k.writes, some w.after.id = except) :
    Obeys D (fun _ k' _ => ∃ closed : List SplitRule,
      k'.writes = k.writes ++ versions (supersede at_) closed ∧
      k'.notes.map stamp = k.notes.map stamp ++ (versions (supersede at_) closed).map stampFor)
      (closeOutActive venueId at_ except) s k := by
  refine obeys_query fun w s' v _ _ _ => ?_
  have hout : ∀ r ∈ v.table.rows.filter (isOutgoing venueId except), r ∈ v.table.rows ∧ some r.id ≠ except :=
    fun r hr => ⟨List.mem_of_mem_filter hr, (isOutgoing_iff.mp (List.mem_filter.mp hr).2).2⟩
  have hids : ((v.table.rows.filter (isOutgoing venueId except)).map SplitRule.id).Nodup :=
    nodup_ids (σ := Rules) _ _
  refine Obeys.mono (closeEach_notes hids fun r hr => ?_) ?_
  · refine wrote_eq_none.mpr fun w hw heq => (hout r hr).2 ?_
    rw [← show w.after.id = r.id from heq]
    exact hwrites w hw
  · rintro s'' k' a ⟨closed, -, hk', hnotes⟩
    exact ⟨closed, hk', hnotes⟩

/-- No version that closes a rule withdraws it. -/
lemma notWithdrawn_versions (closed : List SplitRule) :
    (versions (σ := Rules) (supersede at_) closed).filter (·.after.status != .WITHDRAWN) =
      versions (supersede at_) closed := by
  refine List.filter_eq_self.mpr fun w hw => ?_
  obtain ⟨r, -, rfl⟩ := mem_versions.mp hw
  rfl

lemma forceSet_notes {dto : OverrideSplitRuleDto} {user : Uuid} :
    Obeys D (fun _ k _ => Noted k) (forceSet dto user) s {} := by
  refine obeys_query fun w s₁ v₁ _ _ _ => ?_
  refine obeys_bind.mpr (Obeys.mono (closeOutActive_notes (by simp)) ?_)
  rintro s₂ k₂ - ⟨closed, hwrites, hnotes⟩
  refine obeys_insert fun w' s' v _ _ hsees hfree => obeys_note fun w'' => ?_
  have hnew : ∀ w₀ ∈ k₂.writes, w₀.after.id ≠ w'.uuid := wrote_eq_none.mp (hsees.wrote_none hfree)
  have hrecord : record k₂.writes ⟨none, overriding dto user w.now w'⟩ =
      k₂.writes ++ [⟨none, overriding dto user w.now w'⟩] := record_of_new hnew
  show Noted _
  rw [Noted, hrecord, hwrites, List.map_append, hnotes]
  simp only [List.nil_append, List.filter_append, notWithdrawn_versions, List.map_append]
  rfl

/-- The audit and the answer of a call write nothing more. -/
lemma audited_notes {α : Type} {id : Uuid} {event actorType : String} {actorId : Option Uuid} {detail : Json}
    {site : Site} {g : Draw → Store Rules → Option SplitRule} {f : Option SplitRule → Call Rules α}
    (h : ((k.notes.map stamp) ++ [(id, event)]).Perm
      ((k.writes.filter (·.after.status != .WITHDRAWN)).map stampFor))
    (hf : ∀ o s' k', Noted k' → Obeys D (fun _ k _ => Noted k) (f o) s' k') :
    Obeys D (fun _ k _ => Noted k)
      ((writeAudit id event actorType actorId detail).bind fun _ => (Call.query site g).bind f) s k :=
  obeys_note fun _ => obeys_query fun _ _ _ _ _ _ => hf _ _ _ (by rw [Noted, List.map_append]; exact h)

lemma findByConsentToken_notes {splitRuleId : Uuid} {token : String} :
    Obeys D (fun _ k rule => k.writes = [] ∧ k.notes = [] ∧ rule.id = splitRuleId)
      (findByConsentToken hashToken splitRuleId token) s {} := by
  refine obeys_query fun w s' v _ _ _ => ?_
  rcases hfound : v.row splitRuleId with _ | rule
  · trivial
  simp only
  split
  · trivial
  split
  · trivial
  · exact ⟨rfl, rfl, (row_eq_some.mp hfound).2⟩

lemma respond_notes {splitRuleId : Uuid} {token : String} {decision : Decision} :
    Obeys D (fun _ k _ => Noted k) (respond hashToken splitRuleId token decision) s {} := by
  refine obeys_bind.mpr (Obeys.mono findByConsentToken_notes ?_)
  rintro s₁ k₁ rule ⟨hwrites, hnotes, hrule⟩
  refine obeys_query fun w s₂ v₂ _ _ _ => ?_
  refine obeys_update (fun s₃ v₃ r _ _ _ hr _ => ⟨by cases decision <;> rfl, ?_⟩) fun _ _ => trivial
  have hrid : r.id = rule.id := (row_eq_some.mp hr).2
  have hrecord : record k₁.writes ⟨some r, answer decision w.now r⟩ =
      [⟨some r, answer decision w.now r⟩] := by rw [hwrites]; rfl
  rw [hrecord, Option.isNone_some, if_neg Bool.false_ne_true]
  cases decision with
  | REJECT =>
    refine audited_notes ?_ fun o s k hnoted => ?_
    · simp [hnotes, stampFor, nameOf, answer, hrid]
    · cases o
      · trivial
      · exact hnoted
  | ACCEPT =>
    refine obeys_bind.mpr (Obeys.mono (closeOutActive_notes ?_) ?_)
    · intro w₀ hw₀
      rw [List.mem_singleton.mp hw₀]
      exact congrArg some hrid
    rintro s₄ k₄ - ⟨closed, hwrites₄, hnotes₄⟩
    refine audited_notes ?_ fun o s k hnoted => ?_
    · -- the rules closed first, the one accepted last
      rw [hnotes₄, hwrites₄, hnotes, List.filter_append, List.map_append, notWithdrawn_versions]
      refine List.perm_append_comm.trans (List.Perm.append_right _ ?_)
      simp [stampFor, nameOf, answer, hrid]
    · cases o
      · trivial
      · exact hnoted

lemma propose_notes {dto : CreateSplitRuleDto} {user : Uuid} :
    Obeys D (fun _ k _ => Noted k) (propose hashToken dto user) s {} := by
  refine obeys_query fun w₁ s₁ v₁ _ _ _ => ?_
  simp only
  split
  · trivial
  refine obeys_query fun w₂ s₂ v₂ _ _ _ => ?_
  split
  · trivial
  refine obeys_query fun w₃ s₃ v₃ _ _ _ => ?_
  split
  · trivial
  refine obeys_query fun w₄ s₄ v₄ _ _ _ => ?_
  refine obeys_bind.mpr (obeys_query fun w₅ s₅ v₅ _ _ _ => ?_)
  have hids : ((v₅.table.rows.filter (isOpen dto.venueId)).map Rules.id).Nodup := nodup_ids _ _
  refine Obeys.mono (obeys_updateEach (f := withdraw) (fun _ => rfl) hids fun id _ => rfl) ?_
  rintro s₆ k₆ n ⟨-, -, hnotes, rows, -, hwrites, -⟩
  refine obeys_insert fun w s' v _ _ hsees hfree => obeys_note fun w' => ?_
  have hnew : ∀ w₀ ∈ k₆.writes, w₀.after.id ≠ w.uuid := wrote_eq_none.mp (hsees.wrote_none hfree)
  have hwithdrawn : (versions (σ := Rules) withdraw rows).filter (·.after.status != .WITHDRAWN) = [] := by
    refine List.filter_eq_nil_iff.mpr fun w hw => ?_
    obtain ⟨r, -, rfl⟩ := mem_versions.mp hw
    simp [withdraw]
  show Noted _
  rw [Noted, record_of_new hnew, hwrites, hnotes]
  simp only [List.nil_append, List.filter_append, hwithdrawn]
  rfl

/-- **Every call notes the versions it makes**, whatever the others commit in between. -/
theorem call_notes (op : Operation) (s : Store Rules) :
    Obeys D (fun _ k _ => Noted k) (op.call hashToken) s {} := by
  cases op with
  | propose dto user => exact obeys_bind.mpr propose_notes
  | override dto user => exact obeys_bind.mpr forceSet_notes
  | respond id token decision => exact obeys_bind.mpr respond_notes

/-! ### What a commit adds to a trail -/

lemma filter_of_mem {α β : Type} [DecidableEq β] {f : α → β} {l : List α} (h : (l.map f).Nodup) {a : α}
    (ha : a ∈ l) : l.filter (f · == f a) = [a] := by
  induction l with
  | nil => cases ha
  | cons b l ih =>
    rw [List.map_cons, List.nodup_cons] at h
    have hnone : ∀ c ∈ l, f c ≠ f b := fun c hc heq => h.1 (heq ▸ List.mem_map_of_mem hc)
    rcases List.mem_cons.mp ha with rfl | ha
    · rw [List.filter_cons_of_pos (by simp), List.filter_eq_nil_iff.mpr (by simpa using hnone)]
    · rw [List.filter_cons_of_neg (by simpa using (hnone a ha).symm), ih h.2 ha]

lemma Noted.on (h : Noted k) (id : Uuid) :
    ((k.notes.filter (·.splitRuleId == id)).map stamp).Perm
      ((k.writes.filter fun w => w.after.id == id && w.after.status != .WITHDRAWN).map stampFor) := by
  have hfilter := h.filter (·.1 == id)
  rw [List.filter_map, List.filter_map, List.filter_filter] at hfilter
  exact hfilter

/-- The one event on a rule that got a new version. -/
lemma Noted.one (h : Noted k) (honce : (k.writes.map fun w => w.after.id).Nodup) {w : Write Rules}
    (hw : w ∈ k.writes) (hstatus : w.after.status ≠ .WITHDRAWN) :
    ∃ n, k.notes.filter (·.splitRuleId == w.after.id) = [n] ∧
      n.event = nameOf (w.before.map (·.status)) w.after.status := by
  have hone : (k.writes.filter fun x => x.after.id == w.after.id && x.after.status != .WITHDRAWN) = [w] := by
    rw [← List.filter_filter, List.filter_comm, filter_of_mem honce hw]
    simp [hstatus]
  have hperm := h.on w.after.id
  rw [hone, List.map_singleton, List.perm_singleton, List.map_eq_singleton_iff] at hperm
  obtain ⟨n, hn, hstamp⟩ := hperm
  exact ⟨n, hn, congrArg Prod.snd hstamp⟩

/-- No event on a rule that got none. -/
lemma Noted.none (h : Noted k) {id : Uuid} (hid : k.wrote id = none) :
    k.notes.filter (·.splitRuleId == id) = [] := by
  have hnil : (k.writes.filter fun x => x.after.id == id && x.after.status != .WITHDRAWN) = [] := by
    refine List.filter_eq_nil_iff.mpr fun w hw => ?_
    have hne : w.after.id ≠ id := wrote_eq_none.mp hid w hw
    simp [hne]
  have hperm := h.on id
  rw [hnil, List.map_nil, List.perm_nil, List.map_eq_nil_iff] at hperm
  exact hperm

lemma Noted.about (h : Noted k) {n : SplitRuleAuditEvent} (hn : n ∈ k.notes) :
    ∃ w ∈ k.writes, w.after.id = n.splitRuleId := by
  have hmem : stamp n ∈ (k.writes.filter (·.after.status != .WITHDRAWN)).map stampFor :=
    h.mem_iff.mp (List.mem_map_of_mem hn)
  obtain ⟨w, hw, hstamp⟩ := List.mem_map.mp hmem
  exact ⟨w, List.mem_of_mem_filter hw, congrArg Prod.fst hstamp⟩

/-! ### What can be told -/

lemma statusFrom_perm {l l' : List SplitRuleAuditEvent} (h : l.Perm l') : statusFrom l = statusFrom l' := by
  unfold statusFrom
  congr 1
  funext status
  exact h.any_eq

lemma statusFrom_findAuditTrail (rank : Uuid → ℕ) (id : Uuid) :
    statusFrom (findAuditTrail rank id s) = statusFrom (s.notes.filter (·.splitRuleId == id)) :=
  statusFrom_perm (List.perm_insertionSort _ _)

/-- A first event tells the status it leaves. -/
lemma statusFrom_singleton {n : SplitRuleAuditEvent} {b : SplitRuleStatus} (hn : leaves n = some b) :
    statusFrom [n] = some b := by
  cases b <;> simp [statusFrom, hn]

/-- One more event on the way through life tells the new status. -/
lemma statusFrom_append {l : List SplitRuleAuditEvent} {n : SplitRuleAuditEvent} {a b : SplitRuleStatus}
    (hl : statusFrom l = some a) (hn : leaves n = some b) (hab : b = a ∨ Transition a b) :
    statusFrom (l ++ [n]) = some b := by
  have hany : ∀ status, (l ++ [n]).any (fun n => leaves n == some status) =
      ((l.any fun n => leaves n == some status) || some b == some status) := fun status => by
    rw [List.any_append, List.any_cons, List.any_nil, Bool.or_false, hn]
  simp only [statusFrom, List.find?_cons, List.find?_nil, hany] at hl ⊢
  generalize (l.any fun n => leaves n == some .SUPERSEDED) = superseded at hl ⊢
  generalize (l.any fun n => leaves n == some .ACTIVE) = active at hl ⊢
  generalize (l.any fun n => leaves n == some .REJECTED) = rejected at hl ⊢
  generalize (l.any fun n => leaves n == some .WITHDRAWN) = withdrawn at hl ⊢
  generalize (l.any fun n => leaves n == some .PENDING_ENTERTAINER_APPROVAL) = pending at hl ⊢
  rcases hab with rfl | hab
  · cases b <;> revert superseded active rejected withdrawn pending <;> decide
  · cases hab <;> revert superseded active rejected withdrawn pending <;> decide

/-! ### Runs -/

variable {p p' p₀ : Pool Rules Operation}

/-- When a proposal commits, its withdrawal has met no open proposal: no row was written over. -/
def WithdrewNothing (p : Pool Rules Operation) (ev : Event Rules Operation) : Prop :=
  ∀ i w c dto user, ev = .exec i w → p.running i = some c → c.call = .ret () →
    c.label = .propose dto user → ∀ x ∈ c.work.writes, x.before = none

/-- In every allowed run, every rule's trail tells its status, and every change of a status is
committed with the event that names it. -/
def Accounts (hashToken : String → String)
    (ok : Pool Rules Operation → Event Rules Operation → Prop) (p₀ : Pool Rules Operation) : Prop :=
  ∀ p, Reach (Operation.call hashToken) ok p₀ p → Tells p.store ∧
    ∀ ev p', ok p ev → step (Operation.call hashToken) p ev = some p' → ChangesNamed p.store p'.store

/-- What is known of the trails. -/
structure Trailing (s : Store Rules) : Prop where
  tells : ∀ r ∈ s.table.rows, statusFrom (s.notes.filter (·.splitRuleId == r.id)) = some r.status
  about : ∀ n ∈ s.notes, s.row n.splitRuleId ≠ none

lemma Trailing.of_none (h : Trailing s) {id : Uuid} (hid : s.row id = none) :
    s.notes.filter (·.splitRuleId == id) = [] := by
  refine List.filter_eq_nil_iff.mpr fun n hn hnid => h.about n hn ?_
  rw [eq_of_beq hnid, hid]

/-- The event that names a change leaves the rule in its new status. -/
lemma leaves_nameOf {n : SplitRuleAuditEvent} {before : Option SplitRuleStatus} {after : SplitRuleStatus}
    (h : n.event = nameOf before after) : leaves n = some after := by
  unfold leaves
  rw [h]
  cases after with
  | ACTIVE => cases before <;> rfl
  | _ => rfl

/-- Without withdrawals, no version is a withdrawn one. -/
lemma Does.not_withdrawn (h : Does hashToken op k)
    (hnone : ∀ dto user, op = .propose dto user → ∀ x ∈ k.writes, x.before = none) :
    ∀ w ∈ k.writes, w.after.status ≠ .WITHDRAWN := by
  intro w hw hstatus
  rcases hb : w.before with _ | r
  · have hcreated := h.created w hw hb
    generalize w.after = r' at hcreated hstatus
    cases hcreated <;> cases hstatus
  · have hchanged := h.changed w hw r hb
    generalize w.after = r' at hchanged hstatus
    cases hchanged with
    | withdrawn hopen =>
      rw [hnone _ _ rfl w hw] at hb
      cases hb
    | answered hid hopen htoken =>
      rename_i decision now
      cases decision <;> cases hstatus
    | superseded hactive => cases hstatus

/-- **A commit keeps the trails**, and names what it changes. -/
theorem trailing_commit (hdoes : Does hashToken op k) (hnoted : Noted k) (hsees : Sees k s v)
    (hnot : ∀ w ∈ k.writes, w.after.status ≠ .WITHDRAWN) (h : Trailing s) :
    Trailing v ∧ ChangesNamed s v := by
  have hnotes : v.notes = s.notes ++ k.notes := hsees.rest.2
  have honce : (k.writes.map fun w => w.after.id).Nodup := hsees.held.once
  -- a version's row before
  have hbefore : ∀ w ∈ k.writes, s.row w.after.id = w.before := by
    intro w hw
    rcases hb : w.before with _ | r
    · exact hsees.created hw hb
    · exact hsees.held.current w hw r hb
  refine ⟨⟨fun r hr => ?_, fun n hn => ?_⟩, fun r hr hne => ?_⟩
  · rw [hnotes, List.filter_append]
    rcases hdoes.source hsees hr with ⟨hold, hnone⟩ | ⟨w, hw, rfl, hfrom⟩
    · rw [hnoted.none hnone, List.append_nil]
      exact h.tells r hold
    obtain ⟨n, hn, hname⟩ := hnoted.one honce hw (hnot w hw)
    rw [hn]
    rcases hfrom with ⟨hb, -⟩ | ⟨r₀, hr₀, hb, hchanged⟩
    · rw [h.of_none ((hbefore w hw).trans hb), List.nil_append]
      exact statusFrom_singleton (leaves_nameOf hname)
    · refine statusFrom_append ?_ (leaves_nameOf hname) hchanged.transition
      rw [← show r₀.id = w.after.id from hchanged.evolves.id.symm]
      exact h.tells r₀ hr₀
  · rw [hnotes, List.mem_append] at hn
    rcases hn with hn | hn
    · obtain ⟨r, hr⟩ := Option.ne_none_iff_exists'.mp (h.about n hn)
      obtain ⟨r', hr', -⟩ := hdoes.row hsees hr
      rw [hr']
      nofun
    · obtain ⟨w, hw, hid⟩ := hnoted.about hn
      rw [← hid, show v.row w.after.id = some w.after from hsees.row_of_mem hw]
      nofun
  · rcases hdoes.source hsees hr with ⟨hold, -⟩ | ⟨w, hw, rfl, -⟩
    · exact absurd (congrArg (Option.map (·.status)) (row_of_mem hold)) hne
    · obtain ⟨n, hn, hname⟩ := hnoted.one honce hw (hnot w hw)
      exact ⟨k.notes, n, hnotes, hn, by rw [hbefore w hw]; exact hname⟩

lemma changesNamed_of_rows (h : s'.table = s.table) : ChangesNamed s s' := by
  intro r hr hne
  rw [h] at hr
  exact absurd (congrArg (Option.map (·.status)) (row_of_mem (σ := Rules) hr)) hne

/-- **One turn.** -/
theorem trailing_turn {ev : Event Rules Operation} (hturns : Turns (lifecycle hashToken) p ev p')
    (hpromises : Promises (lifecycle hashToken) (fun _ _ k => Noted k) p)
    (hok : WithdrewNothing p ev) (h : Trailing p.store) :
    Trailing p'.store ∧ ChangesNamed p.store p'.store := by
  cases hturns with
  | same hstore hold => rw [hstore]; exact ⟨h, changesNamed_of_rows rfl⟩
  | others r hstore hsessions =>
    rw [hstore]
    exact ⟨⟨h.tells, h.about⟩, changesNamed_of_rows rfl⟩
  | commits i w c c' hev hc hret hsees hdoes hsessions hlabel hwork hphase =>
    have hdoes : Does hashToken c.label c.work := hdoes
    obtain ⟨-, -, hnoted⟩ := hpromises.ended hc hret
    refine trailing_commit hdoes hnoted hsees (hdoes.not_withdrawn fun dto user hop => ?_) h
    exact hok i w c dto user hev hc hret hop

lemma Backfilled.trailing (hrules : Migrated p) (h : Backfilled p.store) : Trailing p.store := by
  refine ⟨fun r hr => ?_, h.about⟩
  obtain ⟨id, createdAt, htrail⟩ := h.each r hr
  obtain ⟨-, -, hstatus⟩ := hrules.rules r hr
  rw [htrail]
  refine statusFrom_singleton ?_
  split at hstatus <;> simp [leaves, backfill, hstatus]

/-- **The trail accounts for every status a rule had**, as long as no proposal is withdrawn. -/
theorem trail_accounts (h : Migrated p₀) (hback : Backfilled p₀.store) :
    Accounts hashToken WithdrewNothing p₀ := by
  have hentry : ∀ op s, (lifecycle hashToken).Inv s → Keeps hashToken
      (fun _ k _ => Does hashToken op k) (op.call hashToken) s {} := fun op s _ => call_keeps op s
  intro p hreach
  obtain ⟨hsteady, hpromises, htrailing⟩ := steady_reach hentry
    (P := fun p => Promises (lifecycle hashToken) (fun _ _ k => Noted k) p ∧ Trailing p.store) h.steady
    ⟨promises_start h.idle, hback.trailing h⟩ hreach fun _ _ _ hsteady hp hok hs hturns =>
      ⟨promises_step (fun op s _ => call_notes op s) hsteady hturns hs hp.1,
        (trailing_turn hturns hp.1 hok hp.2).1⟩
  refine ⟨fun r hr rank => ?_, fun ev p' hok hs => ?_⟩
  · rw [statusFrom_findAuditTrail]
    exact htrailing.tells r hr
  · exact (trailing_turn (steady_step hentry hsteady hs).2 hpromises hok htrailing).2

/-! ### A run: a proposal withdrawn by the next one -/

/-- One venue with its rule in force and an entertainer, and the trail the migration left. -/
def backfilled : Pool Rules Operation :=
  ⟨{ performing.store with notes := [backfill Money.sampleRule (Money.uid 8) 0] }, []⟩

lemma backfilled_migrated : Migrated backfilled :=
  ⟨rfl, performing_migrated.rules⟩

lemma backfilled_backfilled : Backfilled backfilled.store := by
  refine ⟨fun r hr => ⟨Money.uid 8, 0, ?_⟩, fun n hn => ?_⟩
  · obtain rfl : r = Money.sampleRule := List.mem_singleton.mp hr
    rfl
  · obtain rfl : n = backfill Money.sampleRule (Money.uid 8) 0 := List.mem_singleton.mp hn
    exact fun h => absurd h (by decide)

theorem trail_accounts_sample : Accounts id WithdrewNothing backfilled :=
  trail_accounts backfilled_migrated backfilled_backfilled

/-- The venue proposes terms, and then others. -/
def proposedAgain : List (Event Rules Operation) :=
  [.start (.propose ⟨Money.uid 2, Money.uid 3, 7000, 2500⟩ (Money.uid 9))] ++
    execs 0 [1, 2, 3, 4, 5, 6, 7, 8] ++
    [.start (.propose ⟨Money.uid 2, Money.uid 3, 6000, 3500⟩ (Money.uid 9))] ++
    execs 1 [9, 10, 11, 12, 13, 14, 15, 16, 17]

def untold (s : Store Rules) : Bool :=
  s.table.rows.any fun r => statusFrom (findAuditTrail (fun _ => 0) r.id s) != some r.status

/-- A withdrawn proposal's trail says that it is still open. -/
theorem withdrawal_not_accounted : ¬ Accounts id anyEvent backfilled := by
  intro h
  have hrun : ((run (Operation.call id) backfilled proposedAgain).any fun p => untold p.store) = true := by
    decide +kernel
  obtain ⟨p, hp, huntold⟩ := (Option.any_eq_true _ _).mp hrun
  simp only [untold, List.any_eq_true, bne_iff_ne] at huntold
  obtain ⟨r, hr, hne⟩ := huntold
  exact hne ((h p (reach_of_run hp)).1 r hr _)

end Splitcore.SplitRules
