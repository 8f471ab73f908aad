import Splitcore.Onboarding.Destinations

/-!
The flow of venues: three steps write a venue's payout account, and every call keeps to it.
-/

namespace Splitcore.Onboarding

open Relational Interleaving Confirmation VenueAccount

variable (toUpperCase : String → String)

inductive VenueCall where
  | submitBankDetails (venueId : Uuid) (input : BankDetails)
  | resolveAccount (venueId : Uuid)
  | confirmAccount (venueId : Uuid) (confirmedName : String)
deriving DecidableEq

def VenueCall.program : VenueCall → Prog App Unit
  | .submitBankDetails id input => do let _ ← VenueAccount.submitBankDetails toUpperCase id input
  | .resolveAccount id => do let _ ← VenueAccount.resolveAccount id
  | .confirmAccount id name => do let _ ← VenueAccount.confirmAccount toUpperCase id name

def VenueCall.confirmedName : VenueCall → Option String
  | .confirmAccount _ name => some name
  | _ => none

def venueView (id : Uuid) (db : Db) : Option Destination :=
  (db.venues.find (·.id == id)).map venueRecord

def venuePending (g : Heard VenueCall) :
    Site → Input → Option (Uuid × (Destination → DestinationWrite))
  | .payoutAccountSubmit id accountNumber bankCode changed, _ =>
    some (id, fun _ => .enter (some accountNumber, some bankCode) !changed)
  | .payoutAccountResolve id, _ => g.told.map fun (about, name) => (id, fun _ => .note about name)
  | .payoutAccountConfirm id, w =>
    g.label.confirmedName.map fun name => (id, fun _ => .confirm name w.now)
  | _, _ => none

def venueFlow : Flow VenueCall where
  view := venueView
  submitted := VenueCall.confirmedName
  confirms := .payoutAccountConfirm
  pending := venuePending
  checked _ := true
  backed {g site w id write r} h := by
    unfold venuePending at h
    split at h
    · cases h; trivial
    · obtain ⟨⟨about, name⟩, htold, heq⟩ := Option.map_eq_some_iff.mp h
      cases heq; exact htold
    · obtain ⟨name, hname, heq⟩ := Option.map_eq_some_iff.mp h
      cases heq; exact ⟨hname, rfl, rfl⟩
    · cases h

variable {toUpperCase} {α β : Type} {g : Heard VenueCall} {site : Site} {w : Input} {s s' : Db}
  {id : Uuid} {v' : Venue} {f : Venue → Venue}

/-- The update makes the statement's write, current for the venue its call read. -/
lemma updateVenue_wrote (h : (updateVenue id f).run w s = .ok (v', s'))
    (hid : ∀ v, (f v).id = v.id) {write : Destination → DestinationWrite}
    (hpending : venuePending g site w = some (id, write))
    (happly : ∀ v, venueChecks (f v) = true →
      (write (venueRecord v)).apply (venueRecord v) = some (venueRecord (f v)))
    (hread : ∃ v, g.seen.venues.find (·.id == id) = some v ∧
      (write (venueRecord v)).Current (Matches toUpperCase) (venueRecord v)) :
    Acts venueFlow (Matches toUpperCase) g site w s s' := by
  obtain ⟨n, h⟩ := Tx.run_ok.mp h
  obtain ⟨v, hv, -, hcheck, hfind⟩ := Model.updateOne_find hid h
  replace hv : s.venues.find (·.id == id) = some v := hv
  replace hfind : ∀ id', s'.venues.find (·.id == id') =
      if id' = id then some (f v) else s.venues.find (·.id == id') := hfind
  refine .wrote id write (venueRecord v) (venueRecord (f v)) hpending ?_ (happly v hcheck)
    ?_ (fun id' hne => ?_) fun _ => ?_
  · simp [venueFlow, venueView, hv]
  · simp [venueFlow, venueView, hfind]
  · simp [venueFlow, venueView, hfind, hne]
  · obtain ⟨read, hr, hcur⟩ := hread
    exact ⟨_, by simp [venueFlow, venueView, hr], hcur⟩

/-- The call keeps to the flow of venues. -/
abbrev OnVenueCourse (toUpperCase : String → String) (p : Prog App α) (g : Heard VenueCall) : Prop :=
  Attends venueFlow (Matches toUpperCase) p g

lemma venueCourse_find {k : Venue → Prog App β} (h : ∀ v s, s.venues.find (·.id == id) = some v →
    OnVenueCourse toUpperCase (k v) { g with seen := s }) :
    OnVenueCourse toUpperCase (VenueAccount.find id >>= k) g := by
  unfold VenueAccount.find
  simp only [Prog.bind_eq, Prog.bind_assoc]
  refine attends_query fun w s => ?_
  rcases hv : s.venues.find (·.id == id) with _ | v
  · trivial
  · exact h v s hv

theorem venueSubmit_course {input : BankDetails} :
    OnVenueCourse toUpperCase (VenueAccount.submitBankDetails toUpperCase id input) g := by
  refine venueCourse_find fun _ _ _ => ?_
  refine attends_request trivial fun banks => attends_ofExcept fun bank hbank => ?_
  refine venueCourse_find fun v s hv => ?_
  refine attends_statement fun w db row db' hm => ⟨?_, trivial, trivial⟩
  refine updateVenue_wrote hm (fun row => ?_) rfl (fun row _ => ?_) ⟨v, hv, ?_⟩
  · unfold VenueAccount.bankDetailsCaptured; split <;> rfl
  · unfold VenueAccount.bankDetailsCaptured
    split <;> rename_i hchanged <;> simp [hchanged, Write.apply, venueRecord]
  · by_cases hchanged : v.accountNumber ≠ some input.accountNumber ∨ v.bankCode ≠ some bank.code
    · simp [hchanged, Write.Current]
    · rw [decide_eq_false hchanged]
      simp only [not_or, not_not] at hchanged
      exact .inl (Prod.ext hchanged.1 hchanged.2)

theorem venueResolve_course : OnVenueCourse toUpperCase (VenueAccount.resolveAccount id) g := by
  refine venueCourse_find fun v s hv => ?_
  split
  · rename_i accountNumber bankCode haccount hbank
    refine attends_attempt (obeys_bind.mpr (obeys_request trivial fun answer => ?_))
    rcases answer with e | resolved
    · cases e <;> trivial
    refine attends_command (fun w db row db' hm => ⟨?_, trivial, trivial⟩)
      fun g e => by cases e <;> trivial
    rw [Tx.run_now] at hm
    exact updateVenue_wrote hm (fun _ => rfl) rfl (fun _ _ => rfl)
      ⟨v, hv, Prod.ext (of_truthy haccount) (of_truthy hbank)⟩
  · trivial

theorem venueConfirm_course {confirmedName : String}
    (hlabel : g.label.confirmedName = some confirmedName) :
    OnVenueCourse toUpperCase (VenueAccount.confirmAccount toUpperCase id confirmedName) g := by
  refine venueCourse_find fun v s hv => ?_
  split
  · trivial
  rename_i resolvedAccountName hresolved
  split
  · trivial
  rename_i hmatches
  refine attends_statement fun w db row db' hm => ⟨?_, trivial, trivial⟩
  rw [Tx.run_now] at hm
  have hpending : venuePending { g with seen := s } (.payoutAccountConfirm id) w =
      some (id, fun _ => .confirm confirmedName w.now) := by
    simp [venuePending, hlabel]
  refine updateVenue_wrote hm (fun _ => rfl) hpending (fun row hcheck => ?_)
    ⟨v, hv, fun name hname => ?_⟩
  · -- the CHECK lets nobody confirm what was never resolved
    have hsome : row.resolvedAccountName.isSome = true := by simpa [venueChecks] using hcheck
    simp [Write.apply, venueRecord, hsome]
  · obtain rfl : resolvedAccountName = name :=
      Option.some.inj ((of_truthy hresolved).symm.trans hname)
    exact not_not.mp hmatches

theorem venueProgram_course (call : VenueCall) (db : Db) :
    OnVenueCourse toUpperCase (call.program toUpperCase) { label := call, seen := db } := by
  cases call with
  | submitBankDetails id input => exact attends_void venueSubmit_course
  | resolveAccount id => exact attends_void venueResolve_course
  | confirmAccount id name => exact attends_void (venueConfirm_course rfl)

end Splitcore.Onboarding
