import Splitcore.Money.Claimed
import Splitcore.Money.Duties
import Splitcore.Money.Statuses

/-!
Automatic attempts are bounded: three for each payout, and then a person has to look at it.
-/

namespace Splitcore.Money

open Relational Interleaving

/-! ### The limit -/

def transfersOf (payoutId : Uuid) (h : List (ℕ × Did App)) : List TransferParams :=
  (h.filterMap (transferOf ·.2)).filter (·.payoutId = payoutId)

/-- The run was told that the last automatic attempt was rejected or returned, and put the payout back. -/
def PutBackIn (payoutId : Uuid) (log : List (Did App)) : Prop :=
  ∃ before, before <+: log ∧ dutyIn before = .review payoutId

/-- What is so of the attempts at payouts after a history that began on `s₀`. -/
structure KeepsLimit (s₀ : Db) (h : List (ℕ × Did App)) (p : Pool App Operation Unit) : Prop where
  attempts : ∀ payout ∈ p.store.payouts.rows, payout.attempts ≤ MAX_AUTOMATIC_TRANSFER_ATTEMPTS
  /-- A transfer is one of the attempts up to the limit, and no attempt is sent twice. -/
  transfers : ∀ payoutId, ((transfersOf payoutId h).map (·.reference)).Nodup ∧
    ∀ params ∈ transfersOf payoutId h, ∃ n, currentOf s₀ payoutId < n ∧ n ≤ MAX_AUTOMATIC_TRANSFER_ATTEMPTS ∧
      params.reference = transferReference payoutId n
  bounded : ∀ payoutId, currentOf s₀ payoutId + (transfersOf payoutId h).length ≤ MAX_AUTOMATIC_TRANSFER_ATTEMPTS
  /-- A payout put back at the limit is left to a person, if the bank did not pay it after all; or a run
  is about to do so. -/
  failed : ∀ r ∈ p.runs, ∀ payoutId, PutBackIn payoutId r.log →
    (∃ payout ∈ p.store.payouts.rows, payout.id = payoutId ∧ Rests payout.status) ∨
      ∃ i r', p.live i = some r' ∧ ∃ eff k, r'.prog = .stmt (.markForReview payoutId) eff k

/-! ### Within the limit -/

def retries : Event App Operation Db → Bool
  | .start (.retryPayout _) => true
  | _ => false

def toldNoMoney : Except Err TransferVerification.Status → Bool
  | .ok status => Knows.movedNoMoney status
  | .error _ => false

/-- A verification finds that the last automatic attempt moved no money. -/
def rejectedPastLimit (p : Pool App Operation Unit) : Event App Operation Db → Bool
  | .answer i o => (p.live i).any fun r => match r.prog with
    | .ask (.verifyTransfer reference) _ => toldNoMoney (o (.verifyTransfer reference)) &&
        p.store.payouts.rows.any fun row => row.transferReference == some reference &&
          decide (MAX_AUTOMATIC_TRANSFER_ATTEMPTS ≤ row.attempts)
    | _ => false
  | _ => false

/-- A run that put back a payout at the limit does not come to leave it to a person. -/
def cutShort (p : Pool App Operation Unit) : Event App Operation Db → Bool
  | .fail i _ | .crash i => (p.live i).any fun r => (dutyIn r.log).isReview
  | .lost i w _ => (p.live i).any fun r => match r.prog with
    | .stmt site eff _ => ((dutyIn r.log).next (.stmt site w p.store (eff w p.store))).isReview
    | _ => false
  | _ => false

def WithinLimit (p : Pool App Operation Unit) (ev : Event App Operation Db) : Prop :=
  rejectedPastLimit p ev = false ∧ cutShort p ev = false

instance (p : Pool App Operation Unit) (ev : Event App Operation Db) : Decidable (WithinLimit p ev) :=
  inferInstanceAs (Decidable (_ ∧ _))

/-! ### Transfers are of claimed attempts -/

section Transfers

variable {s₀ s : Db} {h : List (ℕ × Did App)} {payoutId : Uuid}

lemma transfers_sublist : ((transfersOf payoutId h).map (·.reference)).Sublist (sentIn h) :=
  List.filter_sublist.map _

/-- What was sent for a payout was claimed. -/
lemma InTurn.claimed (ht : InTurn s₀ s h) {params : TransferParams} (hmem : params ∈ transfersOf payoutId h) :
    ∃ n ∈ claimedOf payoutId h, params.reference = transferReference payoutId n := by
  obtain ⟨hsent, hid⟩ := List.mem_filter.mp hmem
  obtain ⟨x, hx, hparams⟩ := List.mem_filterMap.mp hsent
  obtain ⟨before, after, rfl⟩ := List.append_of_mem hx
  obtain ⟨d, payout, hd, hclaim, hpayout, href, -⟩ :=
    ht.persisted before x ⟨after, by simp⟩ params hparams
  -- the claim is further back
  obtain ⟨earlier, later, rfl⟩ := List.append_of_mem hd
  obtain ⟨hstored, -⟩ := ht.verified earlier (x.1, d) ⟨later ++ x :: after, by simp⟩ payout hclaim
  have hpayoutId : payout.id = payoutId := hpayout.trans (by simpa using hid)
  refine ⟨payout.attempts, ?_, ?_⟩
  · refine List.mem_map.mpr ⟨payout, List.mem_filter.mpr ⟨List.mem_filterMap.mpr ⟨(x.1, d), ?_, hclaim⟩, ?_⟩, rfl⟩
    · simp
    · simpa using hpayoutId
  · rw [← hpayoutId]
    exact Option.some.inj (href.symm.trans hstored)

lemma InTurn.transfers (ht : InTurn s₀ s h) {params : TransferParams} (hmem : params ∈ transfersOf payoutId h) :
    ∃ n, currentOf s₀ payoutId < n ∧ n ≤ currentOf s payoutId ∧ params.reference = transferReference payoutId n := by
  obtain ⟨n, hn, href⟩ := ht.claimed hmem
  rw [ht.numbered, List.mem_range'_1] at hn
  exact ⟨n, by omega, by omega, href⟩

/-- There are no more transfers than attempts. -/
lemma InTurn.transfers_length (ht : InTurn s₀ s h) (hle : currentOf s₀ payoutId ≤ currentOf s payoutId) :
    currentOf s₀ payoutId + (transfersOf payoutId h).length ≤ currentOf s payoutId := by
  have hnodup : ((transfersOf payoutId h).map (·.reference)).Nodup := ht.unique.sublist transfers_sublist
  have hsub : ((transfersOf payoutId h).map (·.reference)) ⊆
      (claimedOf payoutId h).map (transferReference payoutId) := by
    intro reference hmem
    obtain ⟨params, hparams, rfl⟩ := List.mem_map.mp hmem
    obtain ⟨n, hn, href⟩ := ht.claimed hparams
    exact List.mem_map.mpr ⟨n, hn, href.symm⟩
  have hlen := (List.subperm_of_subset hnodup hsub).length_le
  simp only [List.length_map, ht.numbered, List.length_range'] at hlen
  omega

end Transfers

/-! ### What a log says of the duty -/

section Logs

variable {g : Duty} {k : Knows} {log : List (Did App)} {d : Did App} {q : Payout} {payoutId : Uuid}

lemma dutyIn_snoc : dutyIn (log ++ [d]) = (dutyIn log).next d := by
  simp [dutyIn]

lemma rejected_found : g.rejected ≠ .found q := by
  intro h
  cases g with
  | found p =>
    simp only [Duty.rejected] at h
    split at h <;> cases h
  | _ => cases h

lemma rejected_review (h : g.rejected = .review payoutId) :
    ∃ q, g = .found q ∧ q.id = payoutId ∧ MAX_AUTOMATIC_TRANSFER_ATTEMPTS ≤ q.attempts := by
  cases g with
  | found p =>
    simp only [Duty.rejected] at h
    split at h
    · exact ⟨p, rfl, Duty.review.inj h, ‹_›⟩
    · cases h
  | _ => cases h

lemma next_found (h : g.next d = .found q) : ∃ reference w s s', d = .stmt (.handleTransferEventFind reference) w s s' ∧
    s.payouts.find (·.transferReference == some reference) = some q := by
  unfold Duty.next at h
  split at h
  · rename_i reference w s s'
    rcases hfind : s.payouts.find (·.transferReference == some reference) with _ | p <;> rw [hfind] at h
    · cases h
    · exact ⟨reference, w, s, s', rfl, hfind.trans (congrArg some (Duty.found.inj h))⟩
  · exact absurd h rejected_found
  · split at h
    · cases h
    · exact absurd h rejected_found
  · cases h

lemma next_review (h : g.next d = .review payoutId) : ∃ q site w s s', g = .found q ∧ d = .stmt site w s s' ∧
    q.id = payoutId ∧ MAX_AUTOMATIC_TRANSFER_ATTEMPTS ≤ q.attempts := by
  unfold Duty.next at h
  split at h
  · rename_i reference w s s'
    cases hfind : s.payouts.find (·.transferReference == some reference) <;> rw [hfind] at h <;> cases h
  · obtain ⟨q, hg, hq⟩ := rejected_review h
    exact ⟨q, _, _, _, _, hg, rfl, hq⟩
  · split at h
    · cases h
    · obtain ⟨q, hg, hq⟩ := rejected_review h
      exact ⟨q, _, _, _, _, hg, rfl, hq⟩
  · cases h

/-- The payout found is the one that the run acts on. -/
lemma read_of_found {r : Run App Operation} (h : dutyIn r.log = .found q) : (tracking Operation).at_ r = .read q := by
  refine Monitor.at_log (M := tracking Operation) (P := fun k ds => dutyIn ds = .found q → k = .read q) r
    (fun h => by cases h) (fun k ds d _ h => ?_) h
  rw [dutyIn_snoc] at h
  obtain ⟨reference, w, s, s', rfl, hfind⟩ := next_found h
  show Knows.ofFound (s.payouts.find (·.transferReference == some reference)) = .read q
  rw [hfind]
  rfl

lemma putBackIn_nil : ¬ PutBackIn payoutId [] := by
  rintro ⟨before, hpre, h⟩
  rw [List.prefix_nil] at hpre
  subst hpre
  cases h

lemma PutBackIn.snoc (h : PutBackIn payoutId (log ++ [d])) :
    PutBackIn payoutId log ∨ (dutyIn log).next d = .review payoutId := by
  obtain ⟨before, hpre, h⟩ := h
  rcases List.prefix_concat_iff.mp hpre with rfl | hpre
  · rw [dutyIn_snoc] at h
    exact .inr h
  · exact .inl ⟨before, hpre, h⟩

lemma answered_cleared {ask : Ask} {a : Except Err (Ans ask)} (h : k.next (.answered ask a) = .cleared q) :
    k = .cleared q ∨ ∃ reference status, (⟨ask, a⟩ : Σ ask, Except Err (Ans ask)) = ⟨.verifyTransfer reference, .ok status⟩ ∧
      k = .read q ∧ q.transferReference = some reference ∧ Knows.movedNoMoney status = true := by
  rcases a with e | a
  · cases ask <;> exact .inl (throws_cleared h)
  cases ask with
  | verifyTransfer reference =>
    cases k with
    | read p =>
      simp only [Knows.next, Knows.verified] at h
      split at h
      · rename_i hverified
        cases h
        exact .inr ⟨reference, a, rfl, rfl, hverified.1, hverified.2⟩
      · cases h
    | _ => exact .inl h
  | _ => exact .inl h

lemma asked_cleared {ask : Ask} (h : k.next (.asked ask) = .cleared q) : k = .cleared q := by
  cases ask with
  | initiateTransfer params => cases k <;> first | exact h | cases h
  | _ => exact h

end Logs

/-! ### The limit is kept -/

section Limit

variable {s₀ : Db} {h h' : List (ℕ × Did App)} {p p' : Pool App Operation Unit} {ev : Event App Operation Db}
  {i j : ℕ} {r r' : Run App Operation} {payoutId : Uuid} {q : Payout}

def AtRest (db : Db) (payoutId : Uuid) : Prop :=
  ∃ payout ∈ db.payouts.rows, payout.id = payoutId ∧ Rests payout.status

/-- Some run is about to leave the payout to a person. -/
def Reviewing (p : Pool App Operation Unit) (payoutId : Uuid) : Prop :=
  ∃ i r, p.live i = some r ∧ dutyIn r.log = .review payoutId

/-- A payout at the limit waits for a person, or is paid. -/
def Attended (p : Pool App Operation Unit) (payoutId : Uuid) : Prop :=
  MAX_AUTOMATIC_TRANSFER_ATTEMPTS ≤ currentOf p.store payoutId ∧ (AtRest p.store payoutId ∨ Reviewing p payoutId)

/-- Nobody is past the limit, and every payout put back at the limit is attended to. -/
structure Limiting (p : Pool App Operation Unit) : Prop where
  watched : (duties Operation).WatchesAll p
  programs : ∀ r ∈ p.runs, r.prog.Each Moves
  within : ∀ id, currentOf p.store id ≤ MAX_AUTOMATIC_TRANSFER_ATTEMPTS
  cleared : ∀ i r q, p.live i = some r → (tracking Operation).at_ r = .cleared q →
    q.attempts < MAX_AUTOMATIC_TRANSFER_ATTEMPTS
  putBack : ∀ i id, PutBackIn id (p.logAt i) → Attended p id

/-- What a run does next that put back a payout at the limit. -/
lemma Limiting.reviews (hl : Limiting p) (hrefs : RefsAgree p.store) (hr : p.live i = some r)
    (hduty : dutyIn r.log = .review payoutId) : ∃ eff k, r.prog = .stmt (.markForReview payoutId) eff k := by
  have hw := hl.watched r (Monitor.mem_of_live hr)
  have hat : (duties Operation).at_ r = .review payoutId := hduty
  rcases hp : r.prog with a | e | ⟨site, eff, k⟩ | ⟨ask, k⟩
  · have hpost : ((duties Operation).at_ r).isReview = false := hw.of_ret hp
    rw [hat] at hpost
    cases hpost
  · unfold Monitor.Watches at hw
    split at hw
    · obtain ⟨ask, k, g, hask, -⟩ := hw
      rw [hp] at hask
      cases hask
    · rw [hp] at hw
      have hpost : ((duties Operation).at_ r).isReview = false := hw
      rw [hat] at hpost
      cases hpost
  · have hguar := ((hw.of_stmt hp).1 (inputAt 0) p.store hrefs).1
    obtain rfl := hguar.due payoutId hat
    exact ⟨eff, k, rfl⟩
  · obtain ⟨g, hquery, hg | hg⟩ := hw.asks hp
    · have hnot : g.isReview = false := hquery
      rw [← hg, hat] at hnot
      cases hnot
    · rw [hat] at hg
      cases hg

/-- The run that is about to leave a payout to a person does so next. -/
lemma Limiting.reviewing_step (hl : Limiting p) (hrefs : RefsAgree p.store) (hok : cutShort p ev = false)
    (hs : step services p ev = some p') (hreview : Reviewing p payoutId) :
    Reviewing p' payoutId ∨ ∀ row ∈ p'.store.payouts.rows, row.id = payoutId → Rests row.status := by
  obtain ⟨i, r, hr, hduty⟩ := hreview
  by_cases habout : ev.about = some i
  swap
  · exact .inl ⟨i, r, live_apart hs habout hr, hduty⟩
  obtain ⟨eff, k, hp⟩ := hl.reviews hrefs hr hduty
  have hguar : ∀ w, Dutiful (dutyIn r.log) (.markForReview payoutId) w p.store (eff w p.store) := fun w =>
    (((hl.watched r (Monitor.mem_of_live hr)).of_stmt hp).1 w p.store hrefs).1
  cases ev with
  | start l => cases habout
  | move v => cases habout
  | exec j w =>
    obtain rfl : j = i := Option.some.inj habout
    obtain ⟨r₁, nm, eff₁, k₁, hr₁, hp₁, rfl⟩ := step_exec hs
    obtain rfl : r = r₁ := Option.some.inj (hr.symm.trans hr₁)
    obtain ⟨rfl, rfl, -⟩ := Prog.stmt.inj (hp.symm.trans hp₁)
    exact .inr ((hguar w).reviewed payoutId rfl)
  | lost j w e =>
    obtain rfl : j = i := Option.some.inj habout
    obtain ⟨r₁, nm, eff₁, k₁, hr₁, hp₁, rfl⟩ := step_lost hs
    obtain rfl : r = r₁ := Option.some.inj (hr.symm.trans hr₁)
    obtain ⟨rfl, rfl, -⟩ := Prog.stmt.inj (hp.symm.trans hp₁)
    exact .inr ((hguar w).reviewed payoutId rfl)
  | fail j e =>
    obtain rfl : j = i := Option.some.inj habout
    simp [cutShort, hr, hduty, Duty.isReview] at hok
  | crash j =>
    obtain rfl : j = i := Option.some.inj habout
    simp [cutShort, hr, hduty, Duty.isReview] at hok
  | send j =>
    obtain rfl : j = i := Option.some.inj habout
    obtain ⟨r₁, q, k₁, hr₁, hp₁, -⟩ := step_send hs
    obtain rfl : r = r₁ := Option.some.inj (hr.symm.trans hr₁)
    rw [hp] at hp₁
    cases hp₁
  | answer j o =>
    obtain rfl : j = i := Option.some.inj habout
    obtain ⟨r₁, q, k₁, hr₁, hp₁, -⟩ := step_answer hs
    obtain rfl : r = r₁ := Option.some.inj (hr.symm.trans hr₁)
    rw [hp] at hp₁
    cases hp₁
  | finish j =>
    obtain rfl : j = i := Option.some.inj habout
    obtain ⟨r₁, res, hr₁, hp₁, -⟩ := step_finish hs
    obtain rfl : r = r₁ := Option.some.inj (hr.symm.trans hr₁)
    rw [hp] at hp₁
    rcases hp₁ with ⟨hp₁, -⟩ | ⟨e, hp₁, -⟩ <;> cases hp₁

/-- A payout at the limit that waits for a person keeps waiting, is paid, or is put back. -/
lemma AtRest.stmt {g : Duty} {site : Site} {w : Input} {s s' : Db} (hrest : AtRest s payoutId)
    (hmoves : Moves site s s') (hdutiful : Dutiful g site w s s')
    (hlimit : MAX_AUTOMATIC_TRANSFER_ATTEMPTS ≤ currentOf s payoutId) :
    AtRest s' payoutId ∨ g.next (.stmt site w s s') = .review payoutId := by
  obtain ⟨row, hrow, rfl, hrests⟩ := hrest
  obtain ⟨row', hrow', hid, hstep⟩ := hmoves row hrow
  have hback : site = .handleTransferEventRetrying row.id ∨ site = .handleTransferEventReversed row.id →
      AtRest s' row.id ∨ g.next (.stmt site w s s') = .review row.id := by
    intro hsite
    rcases hdutiful.putBack row.id hsite row hrow rfl with hsame | ⟨q, rfl, hqid, hattempts, hnext⟩
    · exact .inl ⟨row, hsame, rfl, hrests⟩
    · right
      rw [hnext, Duty.rejected, hqid, if_pos]
      rw [hattempts, ← currentOf_mem hrow]
      exact hlimit
  have hclosed : OPEN_STATUSES.contains row.status ≠ true := by
    rcases hrests with hstatus | hstatus <;> rw [hstatus] <;> decide
  have hrest' : Rests row'.status → AtRest s' row.id := fun h => ⟨row', hrow', hid, h⟩
  generalize hbefore : row.status = status at hstep hrests hclosed
  generalize hafter : row'.status = status' at hstep hrest'
  cases hstep with
  | stays => exact .inl (hrest' hrests)
  | held hsite hopen => exact absurd hopen hclosed
  | claimed hsite hopen => exact absurd hopen hclosed
  | delivered hsite hstatus => exact .inl (hrest' (.inr rfl))
  | returned hsite => exact hback (.inr hsite)
  | failed hsite hstatus => exact hback (.inl hsite)
  | reviewed hsite hstatus => exact .inl (hrest' (.inl rfl))

lemma services_grow (ht : Tracked p) (hs : step services p ev = some p') : Grows p.store p'.store := by
  obtain ⟨-, hacted⟩ := services_tracked ht hs
  rcases hev : executes ev with _ | i
  · exact grows_of_eq (hacted.2 hev)
  · obtain ⟨r, site, eff, k, -, -, hacts⟩ := hacted.1 i hev
    exact hacts.grows

/-- A payout attended to is attended to after any event. -/
lemma Limiting.attended_step (hc : Claiming s₀ h p) (hl : Limiting p) (hok : cutShort p ev = false)
    (hs : step services p ev = some p') (hatt : Attended p payoutId) : Attended p' payoutId := by
  obtain ⟨-, hacted⟩ := services_tracked hc.toTracked hs
  obtain ⟨hlimit, hrest⟩ := hatt
  have hlimit' := hlimit.trans (currentOf_mono (services_grow hc.toTracked hs) payoutId)
  refine ⟨hlimit', ?_⟩
  rcases hrest with hrest | hreview
  swap
  · rcases hl.reviewing_step hc.refs hok hs hreview with hreview | hrests
    · exact .inr hreview
    · have hex : ∃ row ∈ p'.store.payouts.rows, row.id = payoutId := by
        by_contra hnone
        push Not at hnone
        rw [currentOf_none hnone] at hlimit'
        cases hlimit'
      obtain ⟨row, hrow, hid⟩ := hex
      exact .inl ⟨row, hrow, hid, hrests row hrow hid⟩
  rcases news_of_step hs with ⟨-, hev, -, -⟩ | ⟨i, r, r', ds, hr, hruns, hgoes, hadds, -, htells⟩
  · rw [AtRest, hacted.2 hev]
    exact .inl hrest
  have hstmt : ∀ {site w}, Executes p p' r site w → AtRest p'.store payoutId ∨
      (dutyIn r.log).next (.stmt site w p.store p'.store) = .review payoutId := by
    rintro site w ⟨eff, k, hp, hstore⟩
    have hguar := (((hl.watched r (Monitor.mem_of_live hr)).of_stmt hp).1 w p.store hc.refs).1
    have hmoves := hl.programs r (Monitor.mem_of_live hr)
    rw [hp] at hmoves
    rw [hstore]
    exact hrest.stmt (hmoves.1 w p.store) hguar hlimit
  cases hadds with
  | stmt site w hev hex =>
    refine (hstmt hex).imp_right fun hduty => ⟨i, r', live_executes hs hev ?_, ?_⟩
    · rw [hruns, getElem?_put (live_eq_some.mp hr).1, if_pos rfl]
    · rw [hgoes.log, dutyIn_snoc, hduty]
  | lost site w e hev hex =>
    refine .inl ((hstmt hex).resolve_right fun hduty => ?_)
    obtain ⟨eff, k, hp, hstore⟩ := hex
    cases htells
    rw [hstore] at hduty
    simp [cutShort, hr, hp, hduty, Duty.isReview] at hok
  | failed hstore => rw [AtRest, hstore]; exact .inl hrest
  | asked hstore => rw [AtRest, hstore]; exact .inl hrest
  | answered hstore => rw [AtRest, hstore]; exact .inl hrest
  | nothing hstore => rw [AtRest, hstore]; exact .inl hrest

/-- Who put back a payout at the limit leaves it to a person next. -/
lemma Limiting.putBack_step (hc : Claiming s₀ h p) (hl : Limiting p) (hok : cutShort p ev = false)
    (hs : step services p ev = some p') (hback : PutBackIn payoutId (p'.logAt j)) : Attended p' payoutId := by
  have hold : PutBackIn payoutId (p.logAt j) → Attended p' payoutId := fun h =>
    hl.attended_step hc hok hs (hl.putBack j payoutId h)
  rcases news_of_step hs with ⟨-, -, hsame, -⟩ | ⟨i, r, r', ds, hr, hruns, hgoes, hadds, -, htells⟩
  · rw [hsame] at hback
    exact hold hback
  have hr' : p'.runs[i]? = some r' := by rw [hruns, getElem?_put (live_eq_some.mp hr).1, if_pos rfl]
  by_cases hji : j = i
  swap
  · have hsame : p'.logAt j = p.logAt j := by
      rw [Pool.logAt, hruns, getElem?_put (live_eq_some.mp hr).1, if_neg hji, Pool.logAt]
    rw [hsame] at hback
    exact hold hback
  subst hji
  have hlog : p'.logAt j = r.log ++ ds := by
    rw [Pool.logAt, hr', ← hgoes.log]
    rfl
  rw [logAt_live hr] at hold
  rw [hlog] at hback
  -- only a statement puts a payout back
  have hother : ∀ {log d}, (∀ site w s s', d ≠ .stmt site w s s') → PutBackIn payoutId (log ++ [d]) →
      PutBackIn payoutId log := by
    intro log d hd hback
    refine hback.snoc.resolve_right fun hnext => ?_
    obtain ⟨q, site, w, s, s', -, heq, -⟩ := next_review hnext
    exact hd site w s s' heq
  cases hadds with
  | stmt site w hev hex =>
    rcases hback.snoc with hback | hnext
    · exact hold hback
    obtain ⟨q, -, -, -, -, hfound, -, rfl, hlimit⟩ := next_review hnext
    refine ⟨?_, .inr ⟨j, r', live_executes hs hev hr', by rw [hgoes.log, dutyIn_snoc, hnext]⟩⟩
    have hfits := hc.fits j r hr
    rw [read_of_found hfound] at hfits
    exact hlimit.trans (HasRow.le_current (hfits.2.grows (services_grow hc.toTracked hs)))
  | lost site w e hev hex =>
    have hlost : r.log ++ [Did.stmt site w p.store p'.store, .failed site e] =
        r.log ++ [.stmt site w p.store p'.store] ++ [.failed site e] := by simp
    rw [hlost] at hback
    rcases (hother (fun _ _ _ _ heq => by cases heq) hback).snoc with hback | hnext
    · exact hold hback
    obtain ⟨eff, k, hp, hstore⟩ := hex
    cases htells
    rw [hstore] at hnext
    simp [cutShort, hr, hp, hnext, Duty.isReview] at hok
  | failed hstore nm e => exact hold (hother (fun _ _ _ _ heq => by cases heq) hback)
  | answered hstore q k hp a => exact hold (hother (fun _ _ _ _ heq => by cases heq) hback)
  | asked hstore q k hp ha => exact hold (hother (fun _ _ _ _ heq => by cases heq) hback)
  | nothing hstore =>
    rw [List.append_nil] at hback
    exact hold hback

/-- Nobody is cleared for an attempt past the limit. -/
lemma Limiting.cleared_step (hc : Claiming s₀ h p) (hl : Limiting p) (hok : rejectedPastLimit p ev = false)
    (hs : step services p ev = some p') (hj : p'.live j = some r') (hat : (tracking Operation).at_ r' = .cleared q) :
    q.attempts < MAX_AUTOMATIC_TRANSFER_ATTEMPTS := by
  rcases news_of_step hs with ⟨-, -, -, hlive⟩ | ⟨i, r, r₁, ds, hr, hruns, hgoes, hadds, -, htells⟩
  · rcases hlive j r' hj with hold | ⟨l, rfl⟩
    · exact hl.cleared j r' q hold hat
    · cases hat
  rcases live_goes hr hruns hj with ⟨hold, -⟩ | ⟨-, rfl, halive⟩
  · exact hl.cleared j r' q hold hat
  rw [Monitor.at_continues hgoes] at hat
  have hold : (tracking Operation).at_ r = .cleared q → q.attempts < MAX_AUTOMATIC_TRANSFER_ATTEMPTS :=
    hl.cleared i r q hr
  have hstmt : ∀ {site w}, ((tracking Operation).at_ r).next (.stmt site w p.store p'.store) = .cleared q →
      q.attempts < MAX_AUTOMATIC_TRANSFER_ATTEMPTS := by
    intro site w hnext
    rcases next_cleared hnext with hg | ⟨-, hq, hnone⟩
    · exact hold hg
    · rw [attempts_eq_zero hc.refs hq hnone]
      decide
  cases hadds with
  | stmt site w hev hex => exact hstmt hat
  | lost site w e hev hex => exact hstmt (throws_cleared hat)
  | failed hstore nm e => exact hold (throws_cleared hat)
  | asked hstore ask k hp ha => exact hold (asked_cleared hat)
  | nothing hstore =>
    rw [hgoes.gone rfl] at halive
    cases halive
  | answered hstore ask k hp a =>
    rcases answered_cleared hat with hg | ⟨reference, status, heq, hread, href, hmoved⟩
    · exact hold hg
    obtain ⟨rfl, hans⟩ := Sigma.mk.inj heq
    cases htells with
    | answer _ o =>
    by_contra hlimit
    rw [not_lt] at hlimit
    -- the row is at the limit, too, and the condition excludes the answer
    have hfits := hc.fits i r hr
    rw [hread] at hfits
    obtain ⟨hagree, row, hrow, hid, -, hle⟩ := hfits
    have hwithin := hl.within row.id
    rw [currentOf_mem hrow] at hwithin
    have hattempts : row.attempts = q.attempts := by omega
    have hrowref : row.transferReference = some reference := by
      rw [hc.refs row hrow, hid, hattempts, ← hagree, href]
    simp only [rejectedPastLimit, hr, Option.any_some, hp, eq_of_heq hans, toldNoMoney, hmoved, Bool.true_and,
      List.any_eq_false] at hok
    exact hok row hrow (by simp [hrowref, hattempts, hlimit])

theorem limiting_step (hc : Claiming s₀ h p) (hl : Limiting p) (hok : WithinLimit p ev) (hretry : retries ev = false)
    (hs : step services p ev = some p') : Limiting p' where
  watched := by
    refine Monitor.watchesAll_step hl.watched (fun l _ _ => program_done l) ?_ hs
    cases ev <;> first | trivial | exact fun _ _ _ _ _ _ => hc.refs
  programs := by
    refine each_step hl.programs (fun l hev => program_moves l ?_) hs
    rintro payoutId rfl
    rw [hev] at hretry
    cases hretry
  within id := by
    obtain ⟨-, hacted⟩ := services_tracked hc.toTracked hs
    rcases hev : executes ev with _ | i
    · rw [currentOf, hacted.2 hev]
      exact hl.within id
    obtain ⟨r, site, eff, k, hr, -, hacts⟩ := hacted.1 i hev
    rcases hacts.current with hsame | ⟨payout, hg, -, -, hcur, hother⟩
    · rw [hsame]
      exact hl.within id
    · by_cases hid : id = payout.id
      · have hlt := hl.cleared i r payout hr hg
        rw [hid, hcur]
        exact hlt
      · rw [hother id hid]
        exact hl.within id
  cleared j r' q hj hat := hl.cleared_step hc hok.1 hs hj hat
  putBack j id hback := hl.putBack_step hc hok.2 hs hback

lemma limiting_start (hruns : p.runs = [])
    (hattempts : ∀ payout ∈ p.store.payouts.rows, payout.attempts ≤ MAX_AUTOMATIC_TRANSFER_ATTEMPTS) :
    Limiting p where
  watched r hr := by simp [hruns] at hr
  programs r hr := by simp [hruns] at hr
  within id := by
    by_cases hex : ∃ row ∈ p.store.payouts.rows, row.id = id
    · obtain ⟨row, hrow, rfl⟩ := hex
      rw [currentOf_mem hrow]
      exact hattempts row hrow
    · push Not at hex
      rw [currentOf_none hex]
      exact Nat.zero_le _
  cleared i r q hr _ := by simp [live_eq_some, hruns] at hr
  putBack i id hback := by
    have hnil : p.logAt i = [] := by simp [Pool.logAt, hruns]
    rw [hnil] at hback
    exact absurd hback putBackIn_nil

end Limit

/-! ### Any run -/

/-- **Automatic attempts are bounded.** On payouts that carry the reference of their last attempt and are not
past the limit, whatever the services do side by side without a retry, as long as no verification finds that
an attempt at the limit moved no money and every run that puts back a payout at the limit comes to its next
statement: no payout has more attempts than the limit, no more transfers were sent for it than it had attempts
left, each for another of them, and a payout put back at the limit waits for a person or was paid after all. -/
theorem attempts_limited {p₀ p : Pool App Operation Unit} {evs : List (Event App Operation Db)}
    (hruns : p₀.runs = []) (hrefs : RefsAgree p₀.store)
    (hattempts : ∀ payout ∈ p₀.store.payouts.rows, payout.attempts ≤ MAX_AUTOMATIC_TRANSFER_ATTEMPTS)
    (hretry : ∀ ev ∈ evs, retries ev = false) (hok : Along services WithinLimit p₀ evs)
    (hrun : run services p₀ evs = some p) : KeepsLimit p₀.store (history services p₀ evs) p := by
  have halong : Along services (fun p ev => WithinLimit p ev ∧ retries ev = false) p₀ evs :=
    hok.and (along_of_all fun ev hev _ => hretry ev hev)
  obtain ⟨hc, hl⟩ := run_history_along (P := fun h p => Claiming p₀.store h p ∧ Limiting p) hruns
    ⟨claiming_start hruns hrefs, limiting_start hruns hattempts⟩
    (fun h p ev p' hlogs hP hok hs =>
      ⟨claiming_step hlogs hP.1 hs, limiting_step hP.1 hP.2 hok.1 hok.2 hs⟩) halong hrun
  refine ⟨fun payout hpayout => ?_, fun payoutId => ⟨?_, fun params hparams => ?_⟩, fun payoutId => ?_,
    fun r hr payoutId hback => ?_⟩
  · rw [← currentOf_mem hpayout]
    exact hl.within payout.id
  · exact hc.unique.sublist transfers_sublist
  · obtain ⟨n, hlt, hle, href⟩ := hc.transfers hparams
    exact ⟨n, hlt, hle.trans (hl.within payoutId), href⟩
  · exact (hc.transfers_length (hc.started payoutId)).trans (hl.within payoutId)
  · obtain ⟨i, hi⟩ := List.getElem?_of_mem hr
    have hlog : p.logAt i = r.log := by rw [Pool.logAt, hi]; rfl
    obtain ⟨-, hrest | ⟨j, r', hr', hduty⟩⟩ := hl.putBack i payoutId (hlog ▸ hback)
    · exact .inl hrest
    · exact .inr ⟨j, r', hr', hl.reviews hc.refs hr' hduty⟩

/-! ### Runs: a third attempt is rejected; and a fourth is made -/

section Runs

variable {V : Type}

def pendingTransfer : (q : Ask) → Except Err (Ans q)
  | .initiateTransfer _ => .ok ⟨.pending, none⟩
  | q => agreeable q

/-- Run `i` finds that the last attempt failed, and sends the next. -/
def attemptAgain (i : ℕ) : List (Event App Operation V) :=
  verifies i .failed ++ execs i [6, 7] ++ asks i agreeable ++ execs i [8] ++ asks i pendingTransfer

def threeAttempts : List (Event App Operation V) := firstPending 0 ++ attemptAgain 1 ++ attemptAgain 2

/-- The bank reports the third attempt as failed. -/
def thirdRejected : List (Event App Operation V) :=
  threeAttempts ++ .start (.handleTransferEvent (transferReference (uid 11) 3) .failed none) ::
    execs 3 [9, 10, 11] ++ [.finish 3]

end Runs

theorem attempts_limited_sample : ∃ p, run services ⟨payoutDb, (), []⟩ thirdRejected = some p ∧
    p.store.payouts.rows.map (fun payout => (payout.attempts, payout.status)) = [(3, .FAILED)] ∧
    (transfersOf (uid 11) (history services ⟨payoutDb, (), []⟩ thirdRejected)).length = 3 ∧
    KeepsLimit payoutDb (history services ⟨payoutDb, (), []⟩ thirdRejected) p := by
  have hrun : ((run services ⟨payoutDb, (), []⟩ thirdRejected).any fun p =>
      p.store.payouts.rows.map (fun payout => (payout.attempts, payout.status)) == [(3, .FAILED)]) = true := by
    decide +kernel
  obtain ⟨p, hp, hfailed⟩ := (Option.any_eq_true _ _).mp hrun
  refine ⟨p, hp, by simpa using hfailed, by decide +kernel,
    attempts_limited rfl (fun payout hpayout => ?_) (fun payout hpayout => ?_) (by decide +kernel) (by decide +kernel) hp⟩
  · rw [(payoutDb_untried payout hpayout).transferReference, (payoutDb_untried payout hpayout).attempts]
    rfl
  · rw [(payoutDb_untried payout hpayout).attempts]
    decide

/-- Without a word from the bank the next run verifies the third attempt, finds that it failed, and makes a
fourth. -/
theorem fourth_attempt : ¬ ∀ evs p, (∀ ev ∈ evs, retries ev = false) →
    run services ⟨payoutDb, (), []⟩ evs = some p →
    KeepsLimit payoutDb (history services ⟨payoutDb, (), []⟩ evs) p := by
  intro h
  have hrun : ((run services ⟨payoutDb, (), []⟩ (threeAttempts ++ attemptAgain 3)).any fun p =>
      p.store.payouts.rows.any fun payout => payout.attempts == 4) = true := by decide +kernel
  obtain ⟨p, hp, hany⟩ := (Option.any_eq_true _ _).mp hrun
  obtain ⟨payout, hpayout, hfour⟩ := List.any_eq_true.mp hany
  have hle := (h (threeAttempts ++ attemptAgain 3) p (by decide +kernel) hp).attempts payout hpayout
  rw [beq_iff_eq.mp hfour] at hle
  exact absurd hle (by decide)

end Splitcore.Money
