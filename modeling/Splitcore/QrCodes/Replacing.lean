import Splitcore.Isolation.Guarantees
import Splitcore.QrCodes.Performing

/-!
Codes replaced by codes, by calls side by side: one live code in every lineage, as long as only live
codes are replaced.
-/

namespace Splitcore.QrCodes

open Relational Isolation Onboarding

/-! ### The calls, statement by statement -/

/-- What a code is created for. -/
structure Hosts where
  venues : Table Venue
  entertainers : Table Entertainer
  venueEntertainers : Table VenueEntertainer

@[reducible] def Codes : Schema where
  Row := QrCode
  Key := Key
  Id := Uuid
  id := QrCode.id
  idKey := Key.id
  Note := Empty
  Rest := Hosts
  Input := Input
  Name := Site
  Err := Err
  idKey_mem r := by simp [Indexed.keys]

namespace Call

def checkEntertainer (venueId : Uuid) : Option Uuid → Call Codes Unit
  | none => pure ()
  | some entertainerId => do
    let entertainer ← .query (.qrCodeEntertainer entertainerId) fun _ s =>
      s.rest.entertainers.find (·.id == entertainerId)
    if entertainer.isNone then .raise (entertainerNotFound entertainerId)
    else
      let link ← .query (.qrCodeLink venueId entertainerId) fun _ s =>
        s.rest.venueEntertainers.find (links venueId entertainerId)
      if link.isNone then .raise (.badRequest "Entertainer is not linked to this venue")
      else pure ()

def create (dto : CreateQrCodeDto) : Call Codes QrCode := do
  let venue ← .query (.qrCodeVenue dto.venueId) fun _ s => s.rest.venues.find (·.id == dto.venueId)
  if venue.isNone then .raise (venueNotFound dto.venueId)
  else
    checkEntertainer dto.venueId dto.entertainerId
    .insert fun w => created dto (publicTokenOf w.randomBytes) (w.uuid 0)

/-- The update of a code by its id, and the time it sets. -/
def off (site : Site) (id : Uuid) : Call Codes (Option QrCode) := do
  let now ← .query site fun w _ => w.now
  .update id (fun _ => true) (deactivated now) .ret

def deactivate (id : Uuid) : Call Codes QrCode := do
  match ← off (.qrCodeDeactivate id) id with
  | some qrCode => pure qrCode
  | none => .raise (qrCodeNotFound id)

def regenerate (id : Uuid) : Call Codes QrCode := do
  let found ← .query (.qrCodeRegenerate id) fun _ s => s.row id
  match found with
  | none => .raise (qrCodeNotFound id)
  | some oldQrCode => do
    match ← off (.qrCodeRegenerate id) id with
    | none => .raise .recordNotFound
    | some _ => .insert fun w => successor oldQrCode (publicTokenOf w.randomBytes) (w.uuid 0)

end Call

inductive CodeOperation where
  | create (dto : CreateQrCodeDto)
  | deactivate (id : Uuid)
  | regenerate (id : Uuid)
deriving DecidableEq

def CodeOperation.call : CodeOperation → Call Codes Unit
  | .create dto => do let _ ← Call.create dto
  | .deactivate id => do let _ ← Call.deactivate id
  | .regenerate id => do let _ ← Call.regenerate id

variable {op : CodeOperation} {s s' v : Store Codes} {k : Work Codes} {id : Uuid} {r : QrCode}

/-! ### What a call has done by its end -/

/-- It deactivated codes, and created one at most: a new one, or the one in place of the code it
deactivated. -/
structure Does (op : CodeOperation) (k : Work Codes) : Prop where
  changed : ∀ w ∈ k.writes, ∀ r, w.before = some r → w.after.isActive = false
  single : ∀ w ∈ k.writes, ∀ w' ∈ k.writes, w.before = none → w'.before = none → w = w'
  replaced : ∀ id, op = .regenerate id → ∃ w ∈ k.writes, w.before ≠ none ∧ w.after.id = id

/-- A code that is there stays there, and an inactive one inactive. -/
def Later (s s' : Store Codes) : Prop :=
  ∀ id r, s.row id = some r → ∃ r', s'.row id = some r' ∧ (r.isActive = false → r'.isActive = false)

/-- Where a code comes from after a commit. -/
lemma Does.source (h : Does op k) (hv : Sees k s v) (hr : r ∈ v.table.rows) :
    r ∈ s.table.rows ∧ k.wrote r.id = none ∨ r.isActive = false ∨
      s.row r.id = none ∧ ∃ w ∈ k.writes, w.before = none ∧ r = w.after := by
  have hrow : v.row r.id = some r := row_of_mem hr
  rw [hv.row] at hrow
  rcases hwrote : k.wrote r.id with _ | w <;> rw [hwrote] at hrow
  · exact .inl ⟨(row_eq_some.mp hrow).1, rfl⟩
  have hmem : w ∈ k.writes := List.mem_of_find?_eq_some hwrote
  obtain rfl : w.after = r := Option.some.inj hrow
  rcases hb : w.before with _ | r₀
  · exact .inr (.inr ⟨hv.created hmem hb, w, hmem, hb, rfl⟩)
  · exact .inr (.inl (h.changed w hmem r₀ hb))

lemma Does.later (h : Does op k) (hv : Sees k s v) : Later s v := by
  intro id r hr
  rw [hv.row]
  rcases hwrote : k.wrote id with _ | w
  · exact ⟨r, hr, fun h => h⟩
  have hmem : w ∈ k.writes := List.mem_of_find?_eq_some hwrote
  refine ⟨w.after, rfl, fun _ => ?_⟩
  rcases hb : w.before with _ | r₀
  · have hfree : s.row w.after.id = none := hv.created hmem hb
    rw [show w.after.id = id from eq_of_beq (List.find?_some hwrote :), hr] at hfree
    cases hfree
  · exact h.changed w hmem r₀ hb

/-- **The discipline of codes.** -/
def codes : Discipline Codes CodeOperation where
  Inv _ := True
  Later := Later
  Does := Does
  refl _ _ r hr := ⟨r, hr, fun h => h⟩
  trans h h' id r hr := by
    obtain ⟨r₁, hr₁, hoff₁⟩ := h id r hr
    obtain ⟨r₂, hr₂, hoff₂⟩ := h' id r₁ hr₁
    exact ⟨r₂, hr₂, fun hr => hoff₂ (hoff₁ hr)⟩
  commit _ hv hdoes := ⟨trivial, hdoes.later hv⟩
  others _ _ := ⟨trivial, fun _ r hr => ⟨r, hr, fun h => h⟩⟩

/-! ### The calls keep to it -/

abbrev Keeps {α : Type} (Q : Store Codes → Work Codes → α → Prop) (c : Call Codes α) (s : Store Codes)
    (k : Work Codes) : Prop :=
  Obeys codes Q c s k

lemma checkEntertainer_keeps {venueId : Uuid} {named : Option Uuid} (hk : k.writes = []) :
    Keeps (fun _ k' _ => k'.writes = []) (Call.checkEntertainer venueId named) s k := by
  cases named with
  | none => exact hk
  | some e =>
    refine obeys_query fun w₁ s₁ v₁ _ _ _ => ?_
    split
    · trivial
    refine obeys_query fun w₂ s₂ v₂ _ _ _ => ?_
    split
    · trivial
    · exact hk

theorem create_keeps {dto : CreateQrCodeDto} :
    Keeps (fun _ k _ => Does (.create dto) k) (Call.create dto) s {} := by
  refine obeys_query fun w₁ s₁ v₁ _ _ _ => ?_
  split
  · trivial
  refine obeys_bind.mpr (Obeys.mono (checkEntertainer_keeps rfl) fun s₂ k₂ _ hk₂ => ?_)
  intro w s₃ v₃ _ _ _ _
  have hwrites : record k₂.writes ⟨none, created dto (publicTokenOf w.randomBytes) (w.uuid 0)⟩ =
      [⟨none, created dto (publicTokenOf w.randomBytes) (w.uuid 0)⟩] := by rw [hk₂]; rfl
  show Does _ { k₂ with writes := record k₂.writes _ }
  rw [hwrites]
  refine ⟨fun w' hw' r hb => ?_, fun w' hw' w'' hw'' _ _ => ?_, fun id hop => by cases hop⟩
  · rw [List.mem_singleton.mp hw'] at hb
    cases hb
  · exact (List.mem_singleton.mp hw').trans (List.mem_singleton.mp hw'').symm

lemma off_keeps {site : Site} {id : Uuid} (hk : k.writes = []) :
    Keeps (fun _ k' found => ∀ qr, found = some qr →
        ∃ r now, r.id = id ∧ k'.writes = [⟨some r, deactivated now r⟩])
      (Call.off site id) s k := by
  refine obeys_query fun w s₁ v₁ _ _ _ => ?_
  intro s₂ v₂ _ _ _
  refine ⟨fun r hr _ => ⟨rfl, fun qr _ => ⟨r, w.now, (row_eq_some.mp hr).2, ?_⟩⟩, fun _ _ h => by cases h⟩
  show record k.writes _ = _
  rw [hk]
  rfl

theorem deactivate_keeps {id : Uuid} : Keeps (fun _ k _ => Does (.deactivate id) k) (Call.deactivate id) s {} := by
  refine obeys_bind.mpr (Obeys.mono (off_keeps rfl) fun s₁ k₁ found hfound => ?_)
  rcases found with _ | qr
  · trivial
  obtain ⟨r, now, -, hwrites⟩ := hfound qr rfl
  refine ⟨fun w hw r' _ => ?_, fun w hw w' hw' hb => ?_, fun id hop => by cases hop⟩
  · rw [hwrites, List.mem_singleton] at hw
    rw [hw]
    rfl
  · rw [hwrites, List.mem_singleton] at hw
    rw [hw] at hb
    cases hb

theorem regenerate_keeps {id : Uuid} : Keeps (fun _ k _ => Does (.regenerate id) k) (Call.regenerate id) s {} := by
  refine obeys_query fun w₁ s₁ v₁ _ _ _ => ?_
  dsimp only
  split
  · trivial
  rename_i oldQrCode _
  refine obeys_bind.mpr (Obeys.mono (off_keeps rfl) fun s₂ k₂ found hfound => ?_)
  rcases found with _ | qr
  · trivial
  obtain ⟨r, now, hid, hwrites⟩ := hfound qr rfl
  intro w s₃ v₃ _ _ hsees hfree
  have hnew : ∀ w₀ ∈ k₂.writes, w₀.after.id ≠ w.uuid 0 := wrote_eq_none.mp (hsees.wrote_none hfree)
  have hrecord : record k₂.writes ⟨none, successor oldQrCode (publicTokenOf w.randomBytes) (w.uuid 0)⟩ =
      [⟨some r, deactivated now r⟩, ⟨none, successor oldQrCode (publicTokenOf w.randomBytes) (w.uuid 0)⟩] := by
    rw [record_of_new hnew, hwrites]
    rfl
  show Does _ { k₂ with writes := record k₂.writes _ }
  rw [hrecord]
  refine ⟨fun w' hw' r' hb => ?_, fun w' hw' w'' hw'' hb hb' => ?_, fun id' hop => ?_⟩
  · simp only [List.mem_cons, List.not_mem_nil, or_false] at hw'
    rcases hw' with rfl | rfl
    · rfl
    · cases hb
  · simp only [List.mem_cons, List.not_mem_nil, or_false] at hw' hw''
    rcases hw' with rfl | rfl
    · cases hb
    rcases hw'' with rfl | rfl
    · cases hb'
    · rfl
  · cases hop
    exact ⟨_, List.mem_cons_self, by simp, hid⟩

/-- **Every call keeps to the discipline.** -/
theorem codeCall_keeps (op : CodeOperation) (s : Store Codes) : Keeps (fun _ k _ => Does op k) op.call s {} := by
  cases op with
  | create dto => exact obeys_bind.mpr create_keeps
  | deactivate id => exact obeys_bind.mpr deactivate_keeps
  | regenerate id => exact obeys_bind.mpr regenerate_keeps

/-! ### Lineages -/

variable {p p' p₀ : Pool Codes CodeOperation} {root : Uuid}

/-- A call that committed put the one in place of the other. -/
def Replaced (p : Pool Codes CodeOperation) (old new : Uuid) : Prop :=
  ∃ c ∈ p.sessions, c.phase = .committed ∧ c.label = .regenerate old ∧
    ∃ w ∈ c.work.writes, w.before = none ∧ w.after.id = new

/-- The second is of the lineage of the first. -/
def Descends (p : Pool Codes CodeOperation) : Uuid → Uuid → Prop := Relation.ReflTransGen (Replaced p)

/-- At most one code of every lineage is active. -/
def OneLive (p : Pool Codes CodeOperation) : Prop :=
  ∀ root, ∀ x ∈ p.store.table.rows, ∀ y ∈ p.store.table.rows,
    Descends p root x.id → Descends p root y.id → x.isActive = true → y.isActive = true → x = y

/-- All codes of the lineage are inactive. -/
def AllOff (p : Pool Codes CodeOperation) (root : Uuid) : Prop :=
  ∀ x ∈ p.store.table.rows, Descends p root x.id → x.isActive = false

/-- When a code is replaced, it is active until then. -/
def ReplacesLive (p : Pool Codes CodeOperation) (ev : Event Codes CodeOperation) : Prop :=
  ∀ i w c, ev = .exec i w → p.running i = some c → c.call = .ret () → ∀ id, c.label = .regenerate id →
    ∀ r, p.store.row id = some r → r.isActive = true

/-- In every run, a lineage has one live code at most, and once it has none it never has one again. -/
def OneLiveCode (ok : Pool Codes CodeOperation → Event Codes CodeOperation → Prop)
    (p₀ : Pool Codes CodeOperation) : Prop :=
  ∀ p, Reach CodeOperation.call ok p₀ p → OneLive p ∧ ∀ root ∈ p.store.table.rows, AllOff p root.id →
    ∀ p', Reach CodeOperation.call ok p p' → AllOff p' root.id

/-- What is in a lineage is there. -/
def Known (p : Pool Codes CodeOperation) : Prop :=
  ∀ old new, Replaced p old new → p.store.row old ≠ none ∧ p.store.row new ≠ none

/-- A code that is not there has no descendants. -/
lemma Known.alone (h : Known p) (hroot : p.store.row root = none) {id : Uuid}
    (hid : Descends p root id) : id = root := by
  rcases Relation.ReflTransGen.cases_head hid with heq | ⟨next, hnext, -⟩
  · exact heq.symm
  · exact absurd hroot (h _ _ hnext).1

/-- What is so of the codes and their lineages. -/
structure Orderly (p : Pool Codes CodeOperation) : Prop where
  known : Known p
  one : OneLive p

/-- The lineages that have no live code have none after the turn. -/
def StaysOff (p p' : Pool Codes CodeOperation) : Prop :=
  ∀ root, p.store.row root ≠ none → AllOff p root → AllOff p' root

/-- The codes are as they were, and the lineages have not grown. -/
lemma Orderly.of_same (h : Orderly p) (htable : p'.store.table = p.store.table)
    (hless : ∀ old new, Replaced p' old new → Replaced p old new) : Orderly p' ∧ StaysOff p p' := by
  have hdescends : ∀ {root id}, Descends p' root id → Descends p root id :=
    fun hid => Relation.ReflTransGen.mono hless _ _ hid
  have hrow : ∀ id, p'.store.row id = p.store.row id := fun id => by rw [Store.row, htable]; rfl
  refine ⟨⟨fun old new hnew => ?_, fun root x hx y hy hrx hry => ?_⟩, fun root _ hoff x hx hrx => ?_⟩
  · rw [hrow, hrow]
    exact h.known old new (hless old new hnew)
  · rw [htable] at hx hy
    exact h.one root x hx y hy (hdescends hrx) (hdescends hry)
  · rw [htable] at hx
    exact hoff x hx (hdescends hrx)

section Commit

variable {c c' : Session Codes CodeOperation} {i : ℕ} {x y : QrCode}

/-- What the session put in the place of a code. -/
def Puts (c : Session Codes CodeOperation) (old new : Uuid) : Prop :=
  c.label = .regenerate old ∧ ∃ w ∈ c.work.writes, w.before = none ∧ w.after.id = new

/-- After its commit, lineages are as they were, with that. -/
def Grows (p p' : Pool Codes CodeOperation) (c : Session Codes CodeOperation) : Prop :=
  ∀ old new, Replaced p' old new → Replaced p old new ∨ Puts c old new

lemma Puts.fresh {old new : Uuid} (h : Puts c old new) (hsees : Sees c.work p.store v) :
    p.store.row new = none := by
  obtain ⟨-, w, hw, hb, rfl⟩ := h
  exact hsees.created hw hb

variable (hgrows : Grows p p' c) (hknown : Known p) (hsees : Sees c.work p.store p'.store)
  (hdoes : Does c.label c.work)
include hgrows hknown hsees

/-- The lineage of what was there before is the one it had. -/
lemma descends_there {id : Uuid} (hid : Descends p' root id) (hthere : p.store.row id ≠ none) :
    Descends p root id := by
  induction hid with
  | refl => exact .refl
  | tail _ hlast ih =>
    rcases hgrows _ _ hlast with hold | hput
    · exact (ih (hknown _ _ hold).1).tail hold
    · exact absurd (hput.fresh hsees) hthere

include hdoes

/-- What was created is of the lineage of the code it replaces. -/
lemma descends_new {id : Uuid} (hid : Descends p' root id) (hfree : p.store.row id = none) :
    id = root ∨ ∃ old r, c.label = .regenerate old ∧ p.store.row old = some r ∧ c.work.wrote old ≠ none ∧
      Descends p root old := by
  rcases Relation.ReflTransGen.cases_tail hid with heq | ⟨old, hold, hlast⟩
  · exact .inl heq
  right
  rcases hgrows _ _ hlast with hbefore | ⟨hlabel, -⟩
  · exact absurd hfree (hknown _ _ hbefore).2
  obtain ⟨w, hw, hb, hwid⟩ := hdoes.replaced old hlabel
  obtain ⟨r, hr⟩ := Option.ne_none_iff_exists'.mp hb
  have hrow : p.store.row old = some r := hwid ▸ hsees.held.current w hw r hr
  refine ⟨old, r, hlabel, hrow, fun hnone => wrote_eq_none.mp hnone w hw hwid, ?_⟩
  exact descends_there hgrows hknown hsees hold (by simp [hrow])

/-- What is in a lineage by then is there. -/
lemma known_commit : Known p' := by
  have hstays : ∀ {id}, p.store.row id ≠ none → p'.store.row id ≠ none := by
    intro id hid
    rw [hsees.row]
    split
    · simp
    · exact hid
  intro old new hnew
  rcases hgrows old new hnew with hbefore | ⟨hlabel, w, hw, hb, rfl⟩
  · obtain ⟨hold, hnew⟩ := hknown old new hbefore
    exact ⟨hstays hold, hstays hnew⟩
  · obtain ⟨w', hw', hb', hid⟩ := hdoes.replaced old hlabel
    obtain ⟨r, hr⟩ := Option.ne_none_iff_exists'.mp hb'
    have hrow : p.store.row w'.after.id = some r := hsees.held.current w' hw' r hr
    have hnewRow : p'.store.row w.after.id = some w.after := hsees.row_of_mem hw
    exact ⟨hid ▸ hstays (by simp [hrow]), by simp [hnewRow]⟩

variable (hone : OneLive p)
  (hlive : ∀ id, c.label = .regenerate id → ∀ r, p.store.row id = some r → r.isActive = true)
include hone hlive

/-- A code that was there and is active has nothing created beside it. -/
lemma none_created (hx : x ∈ p.store.table.rows) (hkept : c.work.wrote x.id = none) (hactive : x.isActive = true)
    (hrx : Descends p' root x.id) {id : Uuid} (hfree : p.store.row id = none) : ¬Descends p' root id := by
  intro hid
  have hxrow : p.store.row x.id = some x := row_of_mem hx
  have hx₀ : Descends p root x.id := descends_there hgrows hknown hsees hrx (by simp [hxrow])
  rcases descends_new hgrows hknown hsees hdoes hid hfree with rfl | ⟨old, r, hlabel, hr, hwrote, hold⟩
  · have hsame : x.id = id := hknown.alone hfree hx₀
    rw [hsame, hfree] at hxrow
    cases hxrow
  · -- the code it replaces was live, so it was this one
    have hrold : r.id = old := (row_eq_some.mp hr).2
    obtain rfl : x = r := hone root x hx r (row_eq_some.mp hr).1 hx₀ (hrold ▸ hold) hactive
      (hlive old hlabel r hr)
    exact hwrote (hrold ▸ hkept)

lemma oneLive_commit : OneLive p' := by
  intro root x hx y hy hrx hry hactive hactive'
  have hinactive : ∀ {z : QrCode}, z.isActive = true → z.isActive ≠ false := fun h => by simp [h]
  rcases hdoes.source hsees hx with ⟨hold, hkept⟩ | hoff | ⟨hfree, w, hw, hb, rfl⟩
  · rcases hdoes.source hsees hy with ⟨hold', -⟩ | hoff' | ⟨hfree', w, hw, hb, rfl⟩
    · have hxrow : p.store.row x.id = some x := row_of_mem hold
      have hyrow : p.store.row y.id = some y := row_of_mem hold'
      exact hone root x hold y hold' (descends_there hgrows hknown hsees hrx (by simp [hxrow]))
        (descends_there hgrows hknown hsees hry (by simp [hyrow])) hactive hactive'
    · exact absurd hoff' (hinactive hactive')
    · exact absurd hry
        (none_created hgrows hknown hsees hdoes hone hlive hold hkept hactive hrx hfree')
  · exact absurd hoff (hinactive hactive)
  · rcases hdoes.source hsees hy with ⟨hold', hkept'⟩ | hoff' | ⟨hfree', w', hw', hb', rfl⟩
    · exact absurd hrx
        (none_created hgrows hknown hsees hdoes hone hlive hold' hkept' hactive' hry hfree)
    · exact absurd hoff' (hinactive hactive')
    · rw [hdoes.single w hw w' hw' hb hb']

omit hone in
lemma staysOff_commit : StaysOff p p' := by
  intro root hroot hoff x hx hrx
  rcases hdoes.source hsees hx with ⟨hold, -⟩ | hinactive | ⟨hfree, -⟩
  · have hxrow : p.store.row x.id = some x := row_of_mem hold
    exact hoff x hold (descends_there hgrows hknown hsees hrx (by simp [hxrow]))
  · exact hinactive
  · rcases descends_new hgrows hknown hsees hdoes hrx hfree with heq | ⟨old, r, hlabel, hr, -, hold⟩
    · exact absurd (heq ▸ hfree) hroot
    · -- the code it replaces was live, and all of the lineage were off
      have hrold : r.id = old := (row_eq_some.mp hr).2
      have hdead : r.isActive = false := hoff r (row_eq_some.mp hr).1 (hrold ▸ hold)
      rw [hlive old hlabel r hr] at hdead
      cases hdead

end Commit

/-- **One turn.** -/
theorem orderly_turn {ev : Event Codes CodeOperation} (h : Turns codes p ev p') (hp : Orderly p)
    (hok : ReplacesLive p ev) : Orderly p' ∧ StaysOff p p' := by
  cases h with
  | same hstore hold =>
    refine hp.of_same (by rw [hstore]) fun old new ⟨c, hc, hphase, hput⟩ => ?_
    obtain ⟨j, hj⟩ := List.getElem?_of_mem hc
    exact ⟨c, List.mem_of_getElem? (hold j c hj hphase), hphase, hput⟩
  | others r hstore hsessions =>
    refine hp.of_same (by rw [hstore]) fun old new ⟨c, hc, hput⟩ => ⟨c, hsessions ▸ hc, hput⟩
  | commits i w c c' hev hc hret hsees hdoes hsessions hlabel hwork hphase =>
    have hgrows : Grows p p' c := by
      rintro old new ⟨d, hd, hdphase, hput⟩
      rw [hsessions] at hd
      rcases List.mem_or_eq_of_mem_set hd with hbefore | rfl
      · exact .inl ⟨d, hbefore, hdphase, hput⟩
      · rw [hlabel, hwork] at hput
        exact .inr hput
    have hlive := hok i w c hev hc hret
    exact ⟨⟨known_commit hgrows hp.known hsees hdoes,
      oneLive_commit hgrows hp.known hsees hdoes hp.one hlive⟩,
      staysOff_commit hgrows hp.known hsees hdoes hlive⟩

/-- **Replacing a code leaves one live code** in its lineage, and a lineage without one gets none again, in
every run in which the codes that are replaced are active until then. -/
theorem one_live_code (hidle : p₀.sessions = []) : OneLiveCode ReplacesLive p₀ := by
  have hnone : ∀ old new, ¬Replaced p₀ old new := by
    rintro old new ⟨c, hc, -⟩
    simp [hidle] at hc
  have hstart : Orderly p₀ := by
    refine ⟨fun old new hnew => absurd hnew (hnone old new), fun root x hx y hy hrx hry _ _ => ?_⟩
    have halone : ∀ {id}, Descends p₀ root id → id = root := fun hid => by
      rcases Relation.ReflTransGen.cases_head hid with heq | ⟨next, hnext, -⟩
      · exact heq.symm
      · exact absurd hnext (hnone _ _)
    exact row_unique (σ := Codes) hx hy ((halone hrx).trans (halone hry).symm)
  have hrun : ∀ {p}, Reach CodeOperation.call ReplacesLive p₀ p → Steady codes p ∧ Orderly p := fun hreach =>
    steady_reach (fun op s _ => codeCall_keeps op s) (steady_start trivial hidle) hstart hreach
      fun _ _ _ _ hp hok _ hturns => (orderly_turn hturns hp hok).1
  intro p hreach
  obtain ⟨hsteady, hp⟩ := hrun hreach
  refine ⟨hp.one, fun root hroot hoff p' hlater => ?_⟩
  have hthere : p.store.row root.id ≠ none := by
    rw [show p.store.row root.id = some root from row_of_mem hroot]
    simp
  exact (steady_reach (fun op s _ => codeCall_keeps op s)
    (P := fun p => Orderly p ∧ p.store.row root.id ≠ none ∧ AllOff p root.id) hsteady
    ⟨hp, hthere, hoff⟩ hlater fun q ev q' hq ⟨hq₁, hq₂, hq₃⟩ hok _ hturns => by
      obtain ⟨hq', hstays⟩ := orderly_turn hturns hq₁ hok
      obtain ⟨r, hr⟩ := Option.ne_none_iff_exists'.mp hq₂
      obtain ⟨r', hr', -⟩ := hturns.later hq.inv root.id r hr
      exact ⟨hq', by simp [show q'.store.row root.id = some r' from hr'], hstays root.id hq₂ hq₃⟩).2.2.2

/-! ### Two replacements at once -/

/-- A venue without codes, and no call under way. -/
def opening : Pool Codes CodeOperation :=
  ⟨⟨.empty, [], ⟨⟨[Money.sampleVenue], Money.sampleVenue_keys⟩, .empty, .empty⟩⟩, []⟩

theorem one_live_code_sample : OneLiveCode ReplacesLive opening := one_live_code rfl

/-- Session `i` executes its next statements, at the times given. -/
def turns (i : ℕ) (times : List ℕ) : List (Event Codes CodeOperation) := times.map fun k => .exec i (drawnAt k)

/-- A code is created, and then replaced by two calls that both find it active. -/
def replacedTwice : List (Event Codes CodeOperation) :=
  .start (.create ⟨Money.uid 2, none, "Bar"⟩) :: turns 0 [1, 2, 3] ++
    [.start (.regenerate (Money.uid 2000)), .start (.regenerate (Money.uid 2000))] ++ turns 1 [4] ++ turns 2 [5] ++
    turns 1 [6, 7, 8, 9] ++ turns 2 [10, 11, 12, 13]

/-- A code is created and deactivated. -/
def retiredCode : List (Event Codes CodeOperation) :=
  .start (.create ⟨Money.uid 2, none, "Bar"⟩) :: turns 0 [1, 2, 3] ++ .start (.deactivate (Money.uid 2000)) ::
    turns 1 [4, 5, 6]

/-- It is then replaced. -/
def revived : List (Event Codes CodeOperation) := .start (.regenerate (Money.uid 2000)) :: turns 2 [7, 8, 9, 10, 11]

def replaced (p : Pool Codes CodeOperation) (old new : Uuid) : Bool := p.sessions.any fun c =>
  c.phase == .committed && c.label == .regenerate old &&
    c.work.writes.any fun w => w.before.isNone && w.after.id == new

lemma descends_of_replaced {p : Pool Codes CodeOperation} {old new : Uuid} (h : replaced p old new = true) :
    Descends p old new := by
  obtain ⟨c, hc, hboth⟩ := List.any_eq_true.mp h
  simp only [Bool.and_eq_true, beq_iff_eq, List.any_eq_true, Option.isNone_iff_eq_none] at hboth
  obtain ⟨⟨hphase, hlabel⟩, w, hw, hb, hid⟩ := hboth
  exact .single ⟨c, hc, hphase, hlabel, w, hw, hb, hid⟩

/-- Two active codes were put in the place of one. -/
def twoLive (p : Pool Codes CodeOperation) (root : Uuid) : Bool :=
  p.store.table.rows.any fun x => p.store.table.rows.any fun y =>
    replaced p root x.id && replaced p root y.id && x.isActive && y.isActive && x != y

theorem two_live_codes : ¬OneLiveCode anyEvent opening := by
  intro hone
  have hrun : ((run CodeOperation.call opening replacedTwice).any fun p => twoLive p (Money.uid 2000)) = true := by
    decide +kernel
  obtain ⟨p, hp, htwo⟩ := (Option.any_eq_true _ _).mp hrun
  simp only [twoLive, List.any_eq_true, Bool.and_eq_true, bne_iff_ne] at htwo
  obtain ⟨x, hx, y, hy, ⟨⟨⟨hrx, hry⟩, hactive⟩, hactive'⟩, hne⟩ := htwo
  exact hne ((hone p (reach_of_run hp)).1 _ x hx y hy (descends_of_replaced hrx) (descends_of_replaced hry)
    hactive hactive')

/-- A lineage that has no live code has one again, also with one call after the other. -/
theorem live_again : ∃ p p', Reach CodeOperation.call anyEvent opening p ∧ AllOff p (Money.uid 2000) ∧
    (∃ x ∈ p.store.table.rows, x.id = Money.uid 2000) ∧
    Reach CodeOperation.call anyEvent p p' ∧ ¬AllOff p' (Money.uid 2000) := by
  have hrun : ((run CodeOperation.call opening retiredCode).any fun p =>
      (p.store.table.rows.any fun x => x.id == Money.uid 2000) && (p.store.table.rows.all fun x => !x.isActive) &&
      (run CodeOperation.call p revived).any fun p' => p'.store.table.rows.any fun x =>
        replaced p' (Money.uid 2000) x.id && x.isActive) = true := by
    decide +kernel
  obtain ⟨p, hp, hboth⟩ := (Option.any_eq_true _ _).mp hrun
  simp only [Bool.and_eq_true, List.any_eq_true, beq_iff_eq, List.all_eq_true, Bool.not_eq_true',
    Option.any_eq_true] at hboth
  obtain ⟨⟨hthere, hoff⟩, p', hp', x, hx, hrx, hactive⟩ := hboth
  refine ⟨p, p', reach_of_run hp, fun x hx _ => hoff x hx, hthere, reach_of_run hp', fun hall => ?_⟩
  rw [hall x hx (descends_of_replaced hrx)] at hactive
  cases hactive

end Splitcore.QrCodes
