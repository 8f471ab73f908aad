import Splitcore.Delivery.Attempts
import Splitcore.Money.Attempted

/-!
Money delivered: the payout services against a provider that receives transfers late or never,
keeps one transfer for each reference, and answers truthfully what became of it.

Each payout's attempts are an instance of numbered attempts at one delivery, and every event of
the pool is a step of them.
-/

namespace Splitcore.Money

open Relational Interleaving Delivery

/-! ### The provider -/

/-- A transfer the provider has received. -/
structure Received where
  params : TransferParams
  status : Transfer.Status
deriving DecidableEq

/-- One transfer for each reference. -/
instance : Indexed Received String := ⟨fun t => [t.params.reference], by simp⟩

structure Provider where
  inTransit : List TransferParams := []
  received : Table Received := .empty

def verification : Transfer.Status → TransferVerification.Status
  | .pending => .pending | .success => .success | .failed => .failed
  | .reversed => .reversed | .requires_action => .requires_action

/-- `failed` and `reversed` are final, and what succeeded can only be reversed. -/
def follows : Transfer.Status → Transfer.Status → Bool
  | .pending, _ | .requires_action, _ => true
  | .success, status => status == .reversed
  | .failed, _ | .reversed, _ => false

namespace Provider

variable (x : Provider)

def find (reference : String) : Option Received := x.received.find (·.params.reference == reference)

def verify (reference : String) : TransferVerification.Status :=
  ((x.find reference).map fun t => verification t.status).getD .not_found

/-- A request arrives. One with a reference the provider has changes nothing. -/
def receive (k : ℕ) : Option Provider := x.inTransit[k]?.map fun params =>
  { inTransit := x.inTransit.eraseIdx k
    received := (x.received.insert ⟨params, .pending⟩).getD x.received }

def lose (k : ℕ) : Provider := { x with inTransit := x.inTransit.eraseIdx k }

def progress (reference : String) (status : Transfer.Status) : Option Provider := do
  let t ← x.find reference
  if follows t.status status then do
    let received ← x.received.update (·.params.reference == reference) fun t => { t with status }
    pure { x with received }
  else none

/-- What the provider delivered for a payout and did not reverse. -/
def delivered (payoutId : Uuid) : List Received :=
  x.received.rows.filter fun t => t.params.payoutId = payoutId ∧ t.status = .success

end Provider

section

variable {x x' : Provider} {reference : String} {t : Received}

lemma Provider.find_eq_some :
    x.find reference = some t ↔ t ∈ x.received.rows ∧ t.params.reference = reference := by
  have hnames : Table.Names (fun t : Received => t.params.reference == reference) reference :=
    fun t ht => by simp [Indexed.keys, beq_iff_eq.mp ht]
  rw [Provider.find, Table.find_eq_some hnames, beq_iff_eq]

lemma Provider.find_eq_none :
    x.find reference = none ↔ ∀ t ∈ x.received.rows, t.params.reference ≠ reference := by
  rw [Provider.find, Table.find_eq_none]
  simp

/-- What a received request changes: the provider has its reference now. -/
lemma receive_eq {k : ℕ} (h : x.receive k = some x') : ∃ params ∈ x.inTransit,
    (∀ t ∈ x'.inTransit, t ∈ x.inTransit) ∧
    (∀ t ∈ x'.received.rows, t ∈ x.received.rows ∨ t.params = params) ∧
    ∀ reference, x'.find reference = if reference = params.reference then
      some ((x.find reference).getD ⟨params, .pending⟩) else x.find reference := by
  obtain ⟨params, hk, rfl⟩ := Option.map_eq_some_iff.mp h
  refine ⟨params, List.mem_of_getElem? hk, fun t => List.mem_of_mem_eraseIdx, ?_⟩
  rcases hfind : x.find params.reference with _ | t
  · have hfresh := Provider.find_eq_none.mp hfind
    obtain ⟨received, hinsert⟩ := Table.insert_of_fresh (t := x.received)
      (a := (⟨params, .pending⟩ : Received)) (by simp [Indexed.keys]) fun r hr k hkr => by
        simp only [Indexed.keys, List.mem_singleton] at hkr ⊢
        rw [hkr]; exact hfresh r hr
    have hrows := Table.rows_insert hinsert
    simp only [hinsert, Option.getD_some, hrows, List.mem_append, List.mem_singleton]
    refine ⟨fun t ht => ht.imp id fun ht => by rw [ht], fun reference => ?_⟩
    simp only [Provider.find, Table.find, hrows, List.find?_append, List.find?_singleton]
    by_cases href : reference = params.reference
    · subst href
      have hnone : x.received.rows.find? (·.params.reference == params.reference) = none := hfind
      simp [hnone]
    · simp [href, Ne.symm href]
  · -- the reference is taken: the insertion fails
    obtain ⟨hmem, href⟩ := Provider.find_eq_some.mp hfind
    have hnone : x.received.insert ⟨params, .pending⟩ = none := by
      by_contra hne
      obtain ⟨t', hinsert⟩ := Option.ne_none_iff_exists'.mp hne
      refine Table.insert_fresh hinsert hmem (k := t.params.reference) ?_ ?_
      · simp [Indexed.keys]
      · simp [Indexed.keys, href]
    simp only [hnone, Option.getD_none]
    refine ⟨fun t ht => .inl ht, fun reference => ?_⟩
    split
    · rename_i heq
      subst heq
      rw [hfind]; exact hfind
    · rfl

lemma progress_eq {status : Transfer.Status} (h : x.progress reference status = some x') :
    ∃ t, x.find reference = some t ∧ follows t.status status = true ∧ x'.inTransit = x.inTransit ∧
      (∀ t' ∈ x'.received.rows, ∃ t ∈ x.received.rows, t.params = t'.params) ∧
      ∀ r, x'.find r = if r = reference then some { t with status } else x.find r := by
  simp only [Provider.progress, Option.bind_eq_bind, Option.bind_eq_some_iff] at h
  obtain ⟨t, hfind, h⟩ := h
  split at h
  · rename_i hfollows
    simp only [Option.bind_eq_some_iff, Option.pure_def, Option.some.injEq] at h
    obtain ⟨received, hupd, rfl⟩ := h
    have hrows := Table.rows_update hupd
    obtain ⟨hmem, href⟩ := Provider.find_eq_some.mp hfind
    have hmem' : ∀ t', t' ∈ received.rows ↔ ∃ t ∈ x.received.rows,
        (if t.params.reference == reference then { t with status } else t) = t' := by
      intro t'; rw [hrows, List.mem_map]
    refine ⟨t, hfind, hfollows, rfl, fun t' ht' => ?_, fun r => ?_⟩
    · obtain ⟨t₀, ht₀, rfl⟩ := (hmem' t').mp ht'
      exact ⟨t₀, ht₀, by split <;> rfl⟩
    · split
      · rename_i heq
        subst heq
        refine Provider.find_eq_some.mpr ⟨(hmem' _).mpr ⟨t, hmem, ?_⟩, href⟩
        rw [if_pos (by simpa using href)]
      · rename_i hne
        rcases hr : x.find r with _ | t₁
        · rw [Provider.find_eq_none] at hr ⊢
          intro t' ht'
          obtain ⟨t₀, ht₀, rfl⟩ := (hmem' t').mp ht'
          have := hr t₀ ht₀
          split <;> exact this
        · obtain ⟨hmem₁, href₁⟩ := Provider.find_eq_some.mp hr
          refine Provider.find_eq_some.mpr ⟨(hmem' _).mpr ⟨t₁, hmem₁, if_neg ?_⟩, href₁⟩
          rw [href₁]; simpa using hne
  · cases h

end

inductive ProviderMove where
  | receive (k : ℕ)
  | lose (k : ℕ)
  | progress (reference : String) (status : Transfer.Status)
  | elsewhere (v : Db)

def transfers : Outside App Operation Provider ProviderMove where
  entry := Operation.program
  start _ _ x := some x
  send _ q x := match q with
    | .initiateTransfer params => { x with inTransit := x.inTransit ++ [params] }
    | _ => x
  answers x q a := match q, a with
    | .verifyTransfer reference, .ok status => status == x.verify reference
    | _, _ => true
  move v db x := match v with
    | .receive k => (x.receive k).map (db, ·)
    | .lose k => some (db, x.lose k)
    | .progress reference status => (x.progress reference status).map (db, ·)
    | .elsewhere v => (elsewhere v db).map (·, x)

/-! ### The attempts at a payout -/

/-- Some live run knows `st`. -/
def Knowing (p : Pool App Operation Provider) (st : Knows) : Prop :=
  ∃ i r, p.live i = some r ∧ (tracking Operation).at_ r = st

def outcome : Transfer.Status → Outcome
  | .pending | .requires_action => .open_
  | .success => .delivered
  | .failed | .reversed => .over

/-- The attempts at one payout, as the pool stands. -/
def attempts (p : Pool App Operation Provider) (id : Uuid) : Attempts where
  current := currentOf p.store id
  held := {n | ∃ q, Knowing p (.holding q) ∧ q.id = id ∧ q.attempts + 1 = n}
  flying := {n | ∃ t ∈ p.out.inTransit, t.reference = transferReference id n}
  outcome n := (p.out.find (transferReference id n)).map fun t => outcome t.status
  cleared := {n | ∃ q, Knowing p (.cleared q) ∧ q.id = id ∧ q.attempts = n}

/-- A transfer is of a payout, for its amount, under one of its references. -/
def Proper (db : Db) (params : TransferParams) : Prop :=
  HasRow db params.payoutId params.amountKobo 0 ∧
    ∃ n, params.reference = transferReference params.payoutId n

/-- The provider answers that it does not know a reference only when it never will: no request
with it is on the way, and nobody is about to send one. -/
def KnownToNobody (p : Pool App Operation Provider) : Event App Operation ProviderMove → Prop
  | .answer i o => ∀ r reference k, p.live i = some r → r.prog = .ask (.verifyTransfer reference) k →
      o (.verifyTransfer reference) = .ok .not_found →
      (∀ t ∈ p.out.inTransit, t.reference ≠ reference) ∧
      ∀ q, Knowing p (.holding q) → transferReference q.id (q.attempts + 1) ≠ reference
  | _ => True

structure Orderly (p : Pool App Operation Provider) : Prop extends Tracked p where
  positive : Positive p.store
  fits : ∀ st, Knowing p st → st.Fits p.store
  safe : ∀ id, (attempts p id).Safe
  inTransit : ∀ t ∈ p.out.inTransit, Proper p.store t
  received : ∀ t ∈ p.out.received.rows, Proper p.store t.params

/-! ### Every event is a step of the attempts -/

variable {p p' : Pool App Operation Provider} {st st' g : Knows} {id : Uuid}

/-- What the runs know after an event, they knew before; but one of them may know `st'`. -/
def Learns (p p' : Pool App Operation Provider) (st' : Knows) : Prop :=
  ∀ st, Knowing p' st → st = st' ∨ Knowing p st

lemma learns_put {i : ℕ} {r r' : Run App Operation} (hr : p.live i = some r)
    (hruns : p'.runs = (p.put i r').runs) : Learns p p' ((tracking Operation).at_ r') := by
  rintro st ⟨j, rj, hj, rfl⟩
  have hj' : (p.put i r').live j = some rj := by
    rw [← hj, Pool.live, ← hruns, Pool.live]
  rw [live_put hr] at hj'
  split at hj'
  · simp only [Option.filter_eq_some_iff, Option.some.injEq] at hj'
    exact .inl (by rw [hj'.1])
  · exact .inr ⟨j, rj, hj', rfl⟩

lemma learns_gone {i : ℕ} {r : Run App Operation} (hr : p.live i = some r)
    (hruns : p'.runs = (p.put i r.gone).runs) : Learns p p' .nothing := by
  rintro st ⟨j, rj, hj, rfl⟩
  have hj' : (p.put i r.gone).live j = some rj := by
    rw [← hj, Pool.live, ← hruns, Pool.live]
  rw [live_put hr] at hj'
  split at hj'
  · simp only [Option.filter_eq_some_iff, Option.some.injEq] at hj'
    obtain ⟨rfl, ha⟩ := hj'
    simp [Run.gone] at ha
  · exact .inr ⟨j, rj, hj', rfl⟩

lemma learns_new {l : Operation} {s : Db} {q : Prog App Unit}
    (hruns : p'.runs = p.runs ++ [.new l s q]) : Learns p p' .nothing := by
  rintro st ⟨j, rj, hj, rfl⟩
  rw [live_eq_some, hruns] at hj
  obtain ⟨hj, ha⟩ := hj
  rcases Nat.lt_or_ge j p.runs.length with hlt | hge
  · rw [List.getElem?_append_left hlt] at hj
    exact .inr ⟨j, rj, live_eq_some.mpr ⟨hj, ha⟩, rfl⟩
  · rw [List.getElem?_append_right hge, List.getElem?_singleton] at hj
    split at hj
    · cases hj; exact .inl rfl
    · cases hj

/-- The attempts held, on the way and cleared, but for what one run learns and one message
adds. -/
lemma within_learns (h : Learns p p' st') (id : Uuid) : Attempts.Within (attempts p id) (attempts p' id)
    {n | ∃ q, st' = .holding q ∧ q.id = id ∧ q.attempts + 1 = n}
    {n | ∃ t ∈ p'.out.inTransit, t ∉ p.out.inTransit ∧ t.reference = transferReference id n}
    {n | ∃ q, st' = .cleared q ∧ q.id = id ∧ q.attempts = n} := by
  refine ⟨?_, ?_, ?_⟩
  · rintro n ⟨q, hq, hid, hn⟩
    exact (h _ hq).elim (fun heq => .inr ⟨q, heq.symm, hid, hn⟩) fun hold => .inl ⟨q, hold, hid, hn⟩
  · rintro n ⟨t, ht, href⟩
    by_cases hmem : t ∈ p.out.inTransit
    · exact .inl ⟨t, hmem, href⟩
    · exact .inr ⟨t, ht, hmem, href⟩
  · rintro n ⟨q, hq, hid, hn⟩
    exact (h _ hq).elim (fun heq => .inr ⟨q, heq.symm, hid, hn⟩) fun hold => .inl ⟨q, hold, hid, hn⟩

/-- Nothing new is held or cleared by what the run now knows. -/
def Knew (p : Pool App Operation Provider) (st' : Knows) : Prop :=
  ∀ q, (st' = .holding q → Knowing p (.holding q)) ∧ (st' = .cleared q → Knowing p (.cleared q))

lemma within_knew (h : Learns p p' st') (hknew : Knew p st')
    (hout : ∀ t ∈ p'.out.inTransit, t ∈ p.out.inTransit) (id : Uuid) :
    Attempts.Within (attempts p id) (attempts p' id) ∅ ∅ ∅ := by
  have hw := within_learns h id
  refine ⟨fun n hn => .inl ?_, fun n hn => .inl ?_, fun n hn => .inl ?_⟩
  · rcases hw.held hn with hn | ⟨q, heq, hid, hn⟩
    · exact hn
    · exact ⟨q, (hknew q).1 heq, hid, hn⟩
  · rcases hw.flying hn with hn | ⟨t, ht, hnot, -⟩
    · exact hn
    · exact absurd (hout t ht) hnot
  · rcases hw.cleared hn with hn | ⟨q, heq, hid, hn⟩
    · exact hn
    · exact ⟨q, (hknew q).2 heq, hid, hn⟩

/-- What one event does to the pool. -/
structure Advances (p p' : Pool App Operation Provider) : Prop where
  learns : ∃ st, st.Fits p'.store ∧ Learns p p' st
  grows : Grows p.store p'.store
  positive : Positive p'.store
  inTransit : ∀ t ∈ p'.out.inTransit, t ∈ p.out.inTransit ∨ Proper p'.store t
  received : ∀ t ∈ p'.out.received.rows,
    (∃ t₀ ∈ p.out.received.rows, t₀.params = t.params) ∨ t.params ∈ p.out.inTransit
  step : ∀ id, (attempts p id).Step (attempts p' id)

lemma Proper.grows {db db' : Db} {params : TransferParams} (h : Proper db params)
    (hg : Grows db db') : Proper db' params :=
  ⟨h.1.grows hg, h.2⟩

lemma Orderly.advances (h : Orderly p) (ha : Advances p p') (ht : Tracked p') : Orderly p' := by
  obtain ⟨st', hfits, hlearns⟩ := ha.learns
  have htransit : ∀ t ∈ p.out.inTransit, Proper p'.store t := fun t ht =>
    (h.inTransit t ht).grows ha.grows
  refine ⟨ht, ha.positive, fun st hst => ?_, fun id => (h.safe id).step (ha.step id),
    fun t ht => (ha.inTransit t ht).elim (htransit t) id, fun t ht => ?_⟩
  · rcases hlearns st hst with rfl | hold
    · exact hfits
    · exact (h.fits st hold).grows ha.grows
  · rcases ha.received t ht with ⟨t₀, ht₀, hparams⟩ | hmem
    · rw [← hparams]; exact (h.received t₀ ht₀).grows ha.grows
    · exact htransit _ hmem

/-- An event that only makes a run forget, or the channel lose. -/
lemma advances_drop (h : Orderly p) (hlearns : Learns p p' st') (hknew : Knew p st')
    (hfits : st'.Fits p.store) (hstore : p'.store.payouts = p.store.payouts)
    (hout : ∀ t ∈ p'.out.inTransit, t ∈ p.out.inTransit)
    (hreceived : p'.out.received = p.out.received) : Advances p p' := by
  refine ⟨⟨st', hfits.grows (grows_of_eq hstore), hlearns⟩, grows_of_eq hstore,
    positive_of_eq hstore h.positive, fun t ht => .inl (hout t ht), fun t ht => .inl ⟨t, ?_, rfl⟩,
    fun id => .drop ?_ ?_ (within_knew hlearns hknew hout id)⟩
  · rwa [hreceived] at ht
  · simp only [attempts, currentOf, hstore]
  · simp only [attempts, Provider.find, hreceived]

/-- A statement. -/
lemma advances_acts (h : Orderly p) {i : ℕ} {r : Run App Operation} {site : Site} {w : Input}
    (hr : p.live i = some r) (hacts : Acts ((tracking Operation).at_ r) site p.store p'.store)
    (hlearns : Learns p p' st') (hout : p'.out = p.out)
    (hst : st' = ((tracking Operation).at_ r).next (.stmt site w p.store p'.store) ∨
      st' = (((tracking Operation).at_ r).next (.stmt site w p.store p'.store)).throws) :
    Advances p p' := by
  have hknow : Knowing p ((tracking Operation).at_ r) := ⟨i, r, hr, rfl⟩
  have hnext := next_fits (w := w) hacts h.refs (h.fits _ hknow)
  have hfits : st'.Fits p'.store := by
    rcases hst with rfl | rfl
    · exact hnext
    · exact throws_fits hnext
  have hholding : ∀ q, st' = .holding q →
      ((tracking Operation).at_ r).next (.stmt site w p.store p'.store) = .holding q := by
    rintro q rfl
    exact hst.elim Eq.symm fun heq => absurd heq.symm throws_holding
  have hcleared : ∀ q, st' = .cleared q →
      ((tracking Operation).at_ r).next (.stmt site w p.store p'.store) = .cleared q := by
    rintro q rfl
    exact hst.elim Eq.symm fun heq => throws_cleared heq.symm
  refine ⟨⟨st', hfits, hlearns⟩, hacts.grows, hacts.positive h.positive,
    fun t ht => .inl (hout ▸ ht), fun t ht => .inl ⟨t, hout ▸ ht, rfl⟩, fun id => ?_⟩
  have hw := within_learns hlearns id
  have hflying : ∀ {n}, n ∈ (attempts p' id).flying → n ∈ (attempts p id).flying := fun hn => by
    simpa only [attempts, hout] using hn
  have houtcome : (attempts p' id).outcome = (attempts p id).outcome := by
    simp only [attempts, hout]
  rcases hacts.current with hsame | ⟨payout, hg, hsite, hcur, hcur', hother⟩
  · -- no claim; at most the run read a payout without attempts
    refine .clear 0 (h.safe id).over_zero (Nat.zero_le _) (hsame id) houtcome
      ⟨fun n hn => .inl ?_, fun n hn => .inl (hflying hn), fun n hn => ?_⟩
    · rcases hw.held hn with hn | ⟨q, heq, hid, hn⟩
      · exact hn
      · rcases next_holding (hholding q heq) with hg | ⟨-, hraises⟩
        · exact ⟨q, hg ▸ hknow, hid, hn⟩
        · have := current_of_raises hraises
          have := hsame q.id
          omega
    · rcases hw.cleared hn with hn | ⟨q, heq, hid, hn⟩
      · exact .inl hn
      · rcases next_cleared (hcleared q heq) with hg | ⟨-, hmem, href⟩
        · exact .inl ⟨q, hg ▸ hknow, hid, hn⟩
        · rw [attempts_eq_zero h.refs hmem href] at hn
          exact .inr hn.symm
  · have hq : ∀ q, ((tracking Operation).at_ r).next (.stmt site w p.store p'.store) = .holding q →
        q = payout := fun q hq => by
      rcases next_holding hq with heq | ⟨heq, -⟩ <;> rw [hg] at heq <;> cases heq
      rfl
    have hclear : (attempts p' id).cleared ⊆ (attempts p id).cleared ∪ ∅ := fun n hn => .inl <| by
      rcases hw.cleared hn with hn | ⟨q, heq, hid, hn⟩
      · exact hn
      · rcases next_cleared (hcleared q heq) with hg | ⟨⟨_, hfind⟩, -⟩
        · exact ⟨q, hg ▸ hknow, hid, hn⟩
        · rw [hsite] at hfind; cases hfind
    by_cases hid : id = payout.id
    · subst hid
      refine .claim ⟨payout, hg ▸ hknow, rfl, hcur.symm⟩ (hcur'.trans (by rw [← hcur]; rfl)) houtcome
        ⟨fun n hn => ?_, fun n hn => .inl (hflying hn), hclear⟩
      rcases hw.held hn with hn | ⟨q, heq, -, hn⟩
      · exact .inl hn
      · rw [hq q (hholding q heq)] at hn
        exact .inr (hn.symm.trans (by rw [← hcur]; rfl))
    · refine .drop (hother id hid) houtcome
        ⟨fun n hn => .inl ?_, fun n hn => .inl (hflying hn), hclear⟩
      rcases hw.held hn with hn | ⟨q, heq, hqid, -⟩
      · exact hn
      · rw [hq q (hholding q heq)] at hqid
        exact absurd hqid.symm hid

lemma knew_of_eq (hst : st' = st ∨ st' = st.throws) (hknow : Knowing p st) : Knew p st' := by
  intro q
  rcases hst with rfl | rfl
  · exact ⟨fun h => h ▸ hknow, fun h => h ▸ hknow⟩
  · exact ⟨fun h => absurd h throws_holding, fun h => throws_cleared h ▸ hknow⟩

/-- A question is sent. -/
lemma advances_send (h : Orderly p) {i : ℕ} {r : Run App Operation} {q : Ask}
    {k : Except Err (Ans q) → Prog App Unit} (hr : p.live i = some r) (hp : r.prog = .ask q k)
    (ha : r.asked = false)
    (hp' : p' = { p.put i (r.sent q) with out := transfers.send r.label q p.out }) :
    Advances p p' := by
  have hknow : Knowing p ((tracking Operation).at_ r) := ⟨i, r, hr, rfl⟩
  have hlearns : Learns p p' (((tracking Operation).at_ r).next (.asked q)) := by
    have hput : Learns p p' ((tracking Operation).at_ (r.sent q)) :=
      learns_put hr (by rw [hp'])
    rwa [Monitor.at_sent] at hput
  have hstore : p'.store = p.store := by rw [hp']; rfl
  have hquiet : ((tracking Operation).at_ r).next (.asked q) = (tracking Operation).at_ r →
      p'.out = p.out → Advances p p' := fun hnext hout => by
    rw [hnext] at hlearns
    exact advances_drop h hlearns (knew_of_eq (.inl rfl) hknow) (h.fits _ hknow)
      (by rw [hstore]) (fun t ht => hout ▸ ht) (by rw [hout])
  cases q with
  | initiateTransfer params =>
    obtain ⟨payout, hg, hpayout, hamount, href⟩ := h.watched.query hr hp ha
    have hout : p'.out = { p.out with inTransit := p.out.inTransit ++ [params] } := by rw [hp']; rfl
    have hsent : ((tracking Operation).at_ r).next (.asked (.initiateTransfer params)) =
        .sent payout := by rw [hg]; rfl
    rw [hsent] at hlearns
    have hfits := h.fits _ hknow
    rw [hg] at hfits hknow
    have hnew : ∀ t ∈ p'.out.inTransit, t ∉ p.out.inTransit → t = params := fun t ht hnot => by
      rw [hout, List.mem_append, List.mem_singleton] at ht
      exact ht.resolve_left hnot
    refine ⟨⟨.sent payout, by rw [hstore]; exact hfits, hlearns⟩, grows_of_eq (by rw [hstore]),
      positive_of_eq (by rw [hstore]) h.positive,
      fun t ht => ?_, fun t ht => .inl ⟨t, ?_, rfl⟩, fun id => ?_⟩
    · by_cases hmem : t ∈ p.out.inTransit
      · exact .inl hmem
      · obtain rfl := hnew t ht hmem
        obtain ⟨row, hrow, hid, hrowamount, -⟩ := hfits
        refine .inr ⟨⟨row, hstore ▸ hrow, hid.trans hpayout.symm, hrowamount.trans hamount.symm,
          Nat.zero_le _⟩, payout.attempts + 1, by rw [href, hpayout]⟩
    · rwa [hout] at ht
    · have hw := within_learns hlearns id
      have hcur : (attempts p' id).current = (attempts p id).current := by
        simp only [attempts, hstore]
      have houtcome : (attempts p' id).outcome = (attempts p id).outcome := by
        simp only [attempts, hout, Provider.find]
      have hheld : (attempts p' id).held ⊆ (attempts p id).held ∪ ∅ := fun n hn => .inl <|
        (hw.held hn).resolve_right fun ⟨q, heq, _⟩ => by cases heq
      have hcleared : (attempts p' id).cleared ⊆ (attempts p id).cleared ∪ ∅ := fun n hn => .inl <|
        (hw.cleared hn).resolve_right fun ⟨q, heq, _⟩ => by cases heq
      have hfly : ∀ {n}, n ∈ (attempts p' id).flying → n ∈ (attempts p id).flying ∨
          id = payout.id ∧ n = payout.attempts + 1 := fun {n} hn => by
        refine (hw.flying hn).imp_right fun ⟨t, ht, hnot, htref⟩ => ?_
        rw [hnew t ht hnot, href, transferReference_inj] at htref
        exact ⟨htref.1.symm, htref.2.symm⟩
      by_cases hid : id = payout.id
      · subst hid
        exact .send (payout.attempts + 1) ⟨payout, hknow, rfl, rfl⟩ hcur houtcome
          ⟨hheld, fun n hn => (hfly hn).imp_right fun hn => hn.2, hcleared⟩
      · exact .drop hcur houtcome
          ⟨hheld, fun n hn => .inl ((hfly hn).resolve_right fun hn => hid hn.1), hcleared⟩
  | _ => exact hquiet rfl (by rw [hp']; rfl)

lemma verification_moved {status : Transfer.Status}
    (h : Knows.movedNoMoney (verification status) = true) : outcome status = .over := by
  cases status <;> first | rfl | cases h

/-- An answer arrives. -/
lemma advances_answer (h : Orderly p) {i : ℕ} {r : Run App Operation} {q : Ask}
    {k : Except Err (Ans q) → Prog App Unit} {o : (q : Ask) → Except Err (Ans q)}
    (hr : p.live i = some r) (hp : r.prog = .ask q k)
    (hanswers : transfers.answers p.out q (o q) = true) (hok : KnownToNobody p (.answer i o))
    (hp' : p' = p.put i (r.goes (k (o q)) [.answered q (o q)])) : Advances p p' := by
  have hknow : Knowing p ((tracking Operation).at_ r) := ⟨i, r, hr, rfl⟩
  have hlearns : Learns p p' (((tracking Operation).at_ r).next (.answered q (o q))) := by
    have hput : Learns p p' ((tracking Operation).at_ (r.goes (k (o q)) [.answered q (o q)])) :=
      learns_put hr (by rw [hp'])
    rwa [Monitor.at_goes] at hput
  have hstore : p'.store = p.store := by rw [hp']; rfl
  have hout : p'.out = p.out := by rw [hp']; rfl
  have hquiet : (((tracking Operation).at_ r).next (.answered q (o q)) = (tracking Operation).at_ r ∨
      ((tracking Operation).at_ r).next (.answered q (o q)) = ((tracking Operation).at_ r).throws) →
      Advances p p' := fun hnext => by
    refine advances_drop h hlearns (knew_of_eq hnext hknow) ?_ (by rw [hstore])
      (fun t ht => hout ▸ ht) (by rw [hout])
    rcases hnext with hnext | hnext <;> rw [hnext]
    · exact h.fits _ hknow
    · exact throws_fits (h.fits _ hknow)
  cases q with
  | verifyTransfer reference =>
    rcases hans : o (.verifyTransfer reference) with e | status
    · exact hquiet (.inr (by rw [hans]; rfl))
    rw [hans] at hlearns hanswers
    have hverify : status = p.out.verify reference := beq_iff_eq.mp hanswers
    have hsame : Knows.verified reference status ((tracking Operation).at_ r) =
        (tracking Operation).at_ r → Advances p p' := fun hnext =>
      hquiet (.inl (by rw [hans]; exact hnext))
    rcases hg : (tracking Operation).at_ r with _ | payout | _ | _ | _
    case read =>
      by_cases hdead : payout.transferReference = some reference ∧ Knows.movedNoMoney status = true
      · -- the last attempt is over: rejected, or unknown to everybody
        rw [hg] at hlearns hknow
        have hnext : (Knows.read payout).next (.answered (.verifyTransfer reference) (.ok status)) =
            .cleared payout := if_pos hdead
        rw [hnext] at hlearns
        have hfits := h.fits _ hknow
        have href : reference = transferReference payout.id payout.attempts := by
          have heq := hfits.1.symm.trans hdead.1
          unfold referenceAt at heq
          split at heq
          · cases heq
          · exact (Option.some.inj heq).symm
        refine ⟨⟨.cleared payout, by rw [hstore]; exact hfits, hlearns⟩, grows_of_eq (by rw [hstore]),
          positive_of_eq (by rw [hstore]) h.positive,
          fun t ht => .inl (hout ▸ ht), fun t ht => .inl ⟨t, hout ▸ ht, rfl⟩, fun id => ?_⟩
        have hw := within_learns hlearns id
        have hcur : (attempts p' id).current = (attempts p id).current := by
          simp only [attempts, hstore]
        have houtcome : (attempts p' id).outcome = (attempts p id).outcome := by
          simp only [attempts, hout]
        have hheld : (attempts p' id).held ⊆ (attempts p id).held ∪ ∅ := fun n hn => .inl <|
          (hw.held hn).resolve_right fun ⟨q, heq, _⟩ => by cases heq
        have hflying : (attempts p' id).flying ⊆ (attempts p id).flying ∪ ∅ := fun n hn => .inl <| by
          simpa only [attempts, hout] using hn
        by_cases hid : id = payout.id
        · subst hid
          refine .clear payout.attempts ?_ ?_ hcur houtcome ⟨hheld, hflying, fun n hn => ?_⟩
          · rcases hfind : p.out.find reference with _ | t
            · have hnot : status = .not_found := by
                rw [hverify, Provider.verify, hfind]; rfl
              obtain ⟨hfly, hhold⟩ := hok r reference k hr hp (by rw [hans, hnot])
              refine .inr ⟨?_, ?_, ?_⟩
              · simp only [attempts, ← href, hfind, Option.map_none]
              · rintro ⟨t, ht, htref⟩
                exact hfly t ht (htref.trans href.symm)
              · rintro ⟨q, hq, hqid, hqn⟩
                exact hhold q hq (by rw [hqid, hqn, href])
            · refine .inl ?_
              have hdone := hdead.2
              rw [hverify, Provider.verify, hfind] at hdone
              simp only [attempts, ← href, hfind, Option.map_some]
              rw [verification_moved hdone]
          · obtain ⟨row, hrow, hid, -, hle⟩ := hfits.2
            have : currentOf p.store payout.id = row.attempts := hid ▸ currentOf_mem hrow
            exact hle.trans this.ge
          · refine (hw.cleared hn).imp_right fun ⟨q, heq, _, hqn⟩ => ?_
            cases heq; exact hqn.symm
        · refine .drop hcur houtcome ⟨hheld, hflying, fun n hn => .inl ?_⟩
          refine (hw.cleared hn).resolve_right fun ⟨q, heq, hqid, _⟩ => ?_
          cases heq; exact hid hqid.symm
      · exact hsame (by rw [hg]; exact if_neg hdead)
    all_goals exact hsame (by rw [hg]; rfl)
  | _ =>
    refine hquiet ?_
    rcases o _ with e | a
    · exact .inr rfl
    · exact .inl rfl

lemma learns_same (hruns : p'.runs = p.runs) : Learns p p' .nothing := by
  rintro st ⟨j, rj, hj, rfl⟩
  exact .inr ⟨j, rj, by rw [← hj, Pool.live, ← hruns, Pool.live], rfl⟩

lemma knew_nothing : Knew p .nothing := fun _ => ⟨by simp, by simp⟩

/-- A request arrives. -/
lemma advances_receive (h : Orderly p) {k : ℕ} {x : Provider} (hx : p.out.receive k = some x)
    (hp' : p' = { p with out := x }) : Advances p p' := by
  obtain ⟨params, hmem, htransit, hreceived, hfind⟩ := receive_eq hx
  subst hp'
  have hlearns : Learns p { p with out := x } .nothing := learns_same rfl
  refine ⟨⟨.nothing, trivial, hlearns⟩, grows_of_eq rfl, h.positive,
    fun t ht => .inl (htransit t ht), fun t ht => ?_, fun id => ?_⟩
  · exact (hreceived t ht).elim (fun ht => .inl ⟨t, ht, rfl⟩) fun heq => .inr (heq ▸ hmem)
  · have hw := within_knew hlearns knew_nothing htransit id
    by_cases href : ∃ n, params.reference = transferReference id n
    · obtain ⟨n, hn⟩ := href
      refine .receive n ⟨params, hmem, hn⟩ rfl ?_ (fun m hm => ?_) hw
      · simp only [attempts, hfind, hn, if_true]
        rcases p.out.find (transferReference id n) with _ | t <;> rfl
      · have hne : transferReference id m ≠ transferReference id n := fun heq =>
          hm (transferReference_inj.mp heq).2
        simp only [attempts, hfind, hn, if_neg hne]
    · refine .drop rfl (funext fun m => ?_) hw
      have hne : transferReference id m ≠ params.reference := fun heq => href ⟨m, heq.symm⟩
      simp only [attempts, hfind, if_neg hne]

lemma outcome_of_follows {status status' : Transfer.Status} (h : follows status status' = true) :
    outcome status ≠ .over := by
  cases status <;> first | decide | cases h

/-- The provider goes on with a transfer. -/
lemma advances_progress (h : Orderly p) {reference : String} {status : Transfer.Status}
    {x : Provider} (hx : p.out.progress reference status = some x)
    (hp' : p' = { p with out := x }) : Advances p p' := by
  obtain ⟨t, ht, hfollows, htransit, hreceived, hfind⟩ := progress_eq hx
  subst hp'
  have hlearns : Learns p { p with out := x } .nothing := learns_same rfl
  refine ⟨⟨.nothing, trivial, hlearns⟩, grows_of_eq rfl, h.positive,
    fun t ht => .inl (htransit ▸ ht), fun t ht => .inl (hreceived t ht), fun id => ?_⟩
  have hw := within_knew hlearns knew_nothing (fun t ht => htransit ▸ ht) id
  by_cases href : ∃ n, reference = transferReference id n
  · obtain ⟨n, rfl⟩ := href
    refine .progress n (outcome status) ?_ ?_ rfl ?_ (fun m hm => ?_) hw
    · simp only [attempts, ht, Option.map_some, ne_eq, Option.some.injEq]
      exact outcome_of_follows hfollows
    · simp [attempts, ht]
    · simp [attempts, hfind]
    · have hne : transferReference id m ≠ transferReference id n := fun heq =>
        hm (transferReference_inj.mp heq).2
      simp only [attempts, hfind, if_neg hne]
  · refine .drop rfl (funext fun m => ?_) hw
    have hne : transferReference id m ≠ reference := fun heq => href ⟨m, heq.symm⟩
    simp only [attempts, hfind, if_neg hne]

theorem advances_step {ev : Event App Operation ProviderMove} (h : Orderly p)
    (hok : KnownToNobody p ev) (hs : step transfers p ev = some p') : Advances p p' := by
  cases ev with
  | start l =>
    obtain ⟨x, hx, rfl⟩ := step_start hs
    cases hx
    exact advances_drop h (learns_new rfl) knew_nothing trivial rfl (fun t ht => ht) rfl
  | exec i w =>
    obtain ⟨r, nm, eff, k, hr, hp, rfl⟩ := step_exec hs
    refine advances_acts h (w := w) hr (h.watched.guar hr hp h.refs w) (learns_put hr rfl) rfl ?_
    exact .inl (Monitor.at_goes _ _)
  | lost i w e =>
    obtain ⟨r, nm, eff, k, hr, hp, rfl⟩ := step_lost hs
    refine advances_acts h (w := w) hr (h.watched.guar hr hp h.refs w) (learns_put hr rfl) rfl ?_
    exact .inr (Monitor.at_goes _ _)
  | fail i e =>
    obtain ⟨r, nm, eff, k, hr, hp, rfl⟩ := step_fail hs
    have hlearns : Learns p (p.put i (r.goes (k (.error e)) [.failed nm e]))
        ((tracking Operation).at_ (r.goes (k (.error e)) [.failed nm e])) := learns_put hr rfl
    rw [Monitor.at_goes] at hlearns
    exact advances_drop h hlearns (knew_of_eq (.inr rfl) ⟨i, r, hr, rfl⟩)
      (throws_fits (h.fits _ ⟨i, r, hr, rfl⟩)) rfl (fun t ht => ht) rfl
  | send i =>
    obtain ⟨r, q, k, hr, hp, ha, hp'⟩ := step_send hs
    exact advances_send h hr hp ha hp'
  | answer i o =>
    obtain ⟨r, q, k, hr, hp, ha, hanswers, hp'⟩ := step_answer hs
    exact advances_answer h hr hp hanswers hok hp'
  | finish i =>
    obtain ⟨r, res, hr, -, rfl⟩ := step_finish hs
    exact advances_drop h (learns_gone hr rfl) knew_nothing trivial rfl (fun t ht => ht) rfl
  | crash i =>
    obtain ⟨r, hr, rfl⟩ := step_crash hs
    exact advances_drop h (learns_gone hr rfl) knew_nothing trivial rfl (fun t ht => ht) rfl
  | move v =>
    obtain ⟨s, x, hm, rfl⟩ := step_move hs
    cases v with
    | receive k =>
      obtain ⟨x', hx, heq⟩ := Option.map_eq_some_iff.mp hm
      cases heq
      exact advances_receive h hx rfl
    | lose k =>
      cases hm
      exact advances_drop h (learns_same rfl) knew_nothing trivial rfl
        (fun t ht => List.mem_of_mem_eraseIdx ht) rfl
    | progress reference status =>
      obtain ⟨x', hx, heq⟩ := Option.map_eq_some_iff.mp hm
      cases heq
      exact advances_progress h hx rfl
    | elsewhere v =>
      obtain ⟨db, helse, heq⟩ := Option.map_eq_some_iff.mp hm
      cases heq
      have hpayouts : s.payouts = p.store.payouts := (elsewhere_keeps helse).2.2.2
      exact advances_drop h (learns_same rfl) knew_nothing trivial hpayouts (fun t ht => ht) rfl

/-- **Every event keeps the pool orderly.** -/
theorem orderly_step {ev : Event App Operation ProviderMove} (h : Orderly p)
    (hok : KnownToNobody p ev) (hs : step transfers p ev = some p') : Orderly p' := by
  have hmove : ∀ v db x db' x', transfers.move v db x = some (db', x') → db'.payouts = db.payouts := by
    intro v db x db' x' hm
    cases v with
    | lose k => cases hm; rfl
    | receive k | progress reference status =>
      obtain ⟨_, -, heq⟩ := Option.map_eq_some_iff.mp hm
      cases heq; rfl
    | elsewhere v =>
      obtain ⟨_, helse, heq⟩ := Option.map_eq_some_iff.mp hm
      cases heq; exact (elsewhere_keeps helse).2.2.2
  exact h.advances (advances_step h hok hs)
    (tracked_step (fun o => program_tracks o) hmove h.toTracked hs).1

/-! ### Runs -/

/-- Nothing has been tried, and the provider knows of nothing. -/
structure Unsent (p : Pool App Operation Provider) : Prop where
  runs : p.runs = []
  inTransit : p.out.inTransit = []
  received : p.out.received.rows = []
  untried : ∀ payout ∈ p.store.payouts.rows, Untried payout

lemma orderly_start (h : Unsent p) : Orderly p := by
  have hlive : ∀ i r, p.live i ≠ some r := fun i r hr => by simp [live_eq_some, h.runs] at hr
  have hknow : ∀ st, ¬ Knowing p st := fun st ⟨i, r, hr, _⟩ => hlive i r hr
  have hfind : ∀ reference, p.out.find reference = none := fun reference =>
    Provider.find_eq_none.mpr fun t ht => by rw [h.received] at ht; cases ht
  have hflying : ∀ id n, n ∉ (attempts p id).flying := fun id n ⟨t, ht, _⟩ => by
    rw [h.inTransit] at ht; cases ht
  have hheld : ∀ id n, n ∉ (attempts p id).held := fun id n ⟨q, hq, _⟩ => hknow _ hq
  have houtcome : ∀ id n, (attempts p id).outcome n = none := fun id n => by
    simp only [attempts, hfind, Option.map_none]
  refine ⟨tracked_start h.runs fun payout hp => ?_, fun payout hp => (h.untried payout hp).positive,
    fun st hst => absurd hst (hknow st),
    fun id => ⟨fun n _ => ?_, fun n ⟨q, hq, _⟩ => absurd hq (hknow _), fun n hu => ?_⟩,
    fun t ht => ?_, fun t ht => ?_⟩
  · rw [(h.untried payout hp).transferReference, (h.untried payout hp).attempts]; rfl
  · exact .inr ⟨houtcome id n, hflying id n, hheld id n⟩
  · rcases hu with hu | hu | hu
    · exact absurd hu (hheld id n)
    · exact absurd hu (hflying id n)
    · exact absurd (houtcome id n) hu
  · rw [h.inTransit] at ht; cases ht
  · rw [h.received] at ht; cases ht

/-- For each payout at most one transfer is delivered and not reversed, and no more money. -/
def PaidOnce (p : Pool App Operation Provider) : Prop := ∀ payout ∈ p.store.payouts.rows,
  (p.out.delivered payout.id).length ≤ 1 ∧
  ((p.out.delivered payout.id).map (·.params.amountKobo)).sum ≤ payout.amountKobo

lemma length_le_one {α : Type} {l : List α} (hnodup : l.Nodup) (h : ∀ a ∈ l, ∀ b ∈ l, a = b) :
    l.length ≤ 1 := by
  rcases l with _ | ⟨a, _ | ⟨b, l⟩⟩
  · simp
  · simp
  · obtain rfl := h a (by simp) b (by simp)
    simp at hnodup

lemma Orderly.paidOnce (h : Orderly p) : PaidOnce p := by
  intro payout hmem
  have hdelivered : ∀ t ∈ p.out.delivered payout.id, t ∈ p.out.received.rows ∧
      t.params.payoutId = payout.id ∧ t.status = .success := fun t ht => by
    simpa [Provider.delivered] using ht
  have hone : ∀ t ∈ p.out.delivered payout.id, ∃ n,
      t.params.reference = transferReference payout.id n ∧
      (attempts p payout.id).outcome n = some .delivered := fun t ht => by
    obtain ⟨hrow, hid, hstatus⟩ := hdelivered t ht
    obtain ⟨-, n, href⟩ := h.received t hrow
    rw [hid] at href
    refine ⟨n, href, ?_⟩
    simp only [attempts, Provider.find_eq_some.mpr ⟨hrow, href⟩, Option.map_some, hstatus, outcome]
  have heq : ∀ t ∈ p.out.delivered payout.id, ∀ t' ∈ p.out.delivered payout.id, t = t' := by
    intro t ht t' ht'
    obtain ⟨n, href, hn⟩ := hone t ht
    obtain ⟨n', href', hn'⟩ := hone t' ht'
    obtain rfl := (h.safe payout.id).delivered_once hn hn'
    exact Table.eq_of_key (k := t.params.reference) (hdelivered t ht).1 (hdelivered t' ht').1
      (by simp [Indexed.keys]) (by simp [Indexed.keys, href, href'])
  have hlength : (p.out.delivered payout.id).length ≤ 1 :=
    length_le_one (Table.nodup_rows.filter _) heq
  refine ⟨hlength, ?_⟩
  rcases hlist : p.out.delivered payout.id with _ | ⟨t, _ | ⟨t', l⟩⟩
  · simpa using (h.positive payout hmem).le
  · obtain ⟨hrow, hid, -⟩ := hdelivered t (by rw [hlist]; simp)
    obtain ⟨⟨row, hrow', hrid, hamount, -⟩, -⟩ := h.received t hrow
    obtain rfl := payout_eq hrow' hmem (hrid.trans hid)
    simp [hamount]
  · rw [hlist] at hlength
    simp at hlength

/-- **No payout obligation is paid twice**, as long as the provider says that it does not know
a reference only when nobody will still send it. -/
theorem paid_at_most_once {p₀ : Pool App Operation Provider} (h₀ : Unsent p₀)
    (h : Reach transfers KnownToNobody p₀ p) : PaidOnce p :=
  (h.keeps (fun _ _ _ => orderly_step) (orderly_start h₀)).paidOnce

/-! ### Two runs: one payout, one attempt; and one payout, two attempts -/

def unsent : Pool App Operation Provider := ⟨payoutDb, {}, []⟩

lemma unsent_sample : Unsent unsent := ⟨rfl, rfl, rfl, payoutDb_untried⟩

/-- Run `i` finds a payout without a reference and claims its first attempt; it is about to send
it. -/
def claimsFirst (i : ℕ) : List (Event App Operation ProviderMove) :=
  .start (.processPayout (uid 11)) :: execs i [1, 2, 3] ++ asks i agreeable ++ execs i [4]

/-- Run `i` sends its transfer, and the provider delivers it. -/
def sendsNow (i attempt : ℕ) : List (Event App Operation ProviderMove) :=
  [.send i, .move (.receive 0), .move (.progress (transferReference (uid 11) attempt) .success)]

lemma agreeable_known {p : Pool App Operation Provider} {ev : Event App Operation ProviderMove}
    (h : ∀ i o, ev = .answer i o → o = agreeable) : KnownToNobody p ev := by
  cases ev with
  | answer i o =>
    intro r reference k _ _ hnot
    rw [h i o rfl] at hnot
    cases hnot
  | _ => trivial

theorem paid_at_most_once_sample :
    ∃ p, run transfers unsent (claimsFirst 0 ++ sendsNow 0 1) = some p ∧ PaidOnce p := by
  obtain ⟨p, hp⟩ := Option.isSome_iff_exists.mp
    (by decide +kernel : (run transfers unsent (claimsFirst 0 ++ sendsNow 0 1)).isSome = true)
  refine ⟨p, hp, paid_at_most_once unsent_sample (reach_of_run (along_of_all fun ev hev p => ?_) hp)⟩
  refine agreeable_known fun i o heq => ?_
  subst heq
  simp only [claimsFirst, sendsNow, execs, asks, List.map_cons, List.map_nil, List.cons_append,
    List.nil_append, List.mem_cons, reduceCtorEq, false_or, List.not_mem_nil, or_false,
    Event.answer.injEq] at hev
  exact hev.2

/-- The provider has not heard of the transfer. -/
def unaware : (q : Ask) → Except Err (Ans q)
  | .verifyTransfer _ => .ok .not_found
  | q => agreeable q

/-- Run `i` finds the first attempt, is told that it is unknown, and claims the second. -/
def claimsSecond (i : ℕ) : List (Event App Operation ProviderMove) :=
  .start (.processPayout (uid 11)) :: execs i [5] ++ asks i unaware ++ execs i [6, 7] ++
    asks i agreeable ++ execs i [8]

/-- The first attempt is sent after the second was delivered, and is delivered too. -/
theorem paid_twice : ¬ ∀ p, Reach transfers anyEvent unsent p → PaidOnce p := by
  intro h
  have hrun : ((run transfers unsent (claimsFirst 0 ++ claimsSecond 1 ++ sendsNow 1 2 ++
      sendsNow 0 1)).any fun p => p.store.payouts.rows.any fun payout =>
        (p.out.delivered payout.id).length == 2) = true := by
    decide +kernel
  obtain ⟨p, hp, hany⟩ := (Option.any_eq_true _ _).mp hrun
  obtain ⟨payout, hmem, hlength⟩ := List.any_eq_true.mp hany
  have hle := (h p (reach_of_run (along_any _) hp) payout hmem).1
  rw [beq_iff_eq.mp hlength] at hle
  omega

end Splitcore.Money
