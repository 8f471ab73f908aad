import Splitcore.Money.Services
import Splitcore.Onboarding.EntertainerFlow
import Splitcore.Onboarding.VenueFlow

/-!
Confirmations under concurrency.

The calls decide by the record they read and write unconditionally by id. As long as each write
meets a record it is current for, a confirmed destination is the one the bank named.
-/

namespace Splitcore.Onboarding

open Relational Interleaving Confirmation Money

/-! ### The flows at work -/

section Flows

variable {L : Type} {F : Flow L} {agrees : String → String → Prop}
  {env : Outside App L Unit Db} {p p' : Pool App L Unit} {ev : Event App L Db}

/-- In every allowed run, a confirmed destination's name is what the bank gave for it, and the name
submitted to the confirmation agreed. -/
def Refers (F : Flow L) (agrees : String → String → Prop) (env : Outside App L Unit Db)
    (ok : Pool App L Unit → Event App L Db → Prop) (p₀ : Pool App L Unit) : Prop :=
  ∀ p, Reach env ok p₀ p → ∀ id d t, F.view id p.store = some d → d.confirmed = some t →
    ∃ name, d.answer = some name ∧ BankSaid p d.details name ∧ Agreed F agrees p id t name

/-- The pool keeps to the flow, and its destinations are sound. -/
structure Attended (F : Flow L) (agrees : String → String → Prop) (p : Pool App L Unit) : Prop where
  watched : (attending F agrees).WatchesAll p
  sound : AllSound F agrees p

/-- Nothing has run, and nothing was found out. -/
lemma attended_start (hruns : p.runs = [])
    (hblank : ∀ id d, F.view id p.store = some d → d.Blank) : Attended F agrees p :=
  ⟨fun r hr => by simp [hruns] at hr, fun id d hd => (hblank id d hd).sound⟩

variable (hentry : ∀ call db, Attends F agrees (env.entry call) { label := call, seen := db })
  (hmove : ∀ v s x s' x', env.move v s x = some (s', x') → ∀ id, F.view id s' = F.view id s)
include hentry hmove

theorem attended_step (h : Attended F agrees p) (hs : step env p ev = some p')
    (hcurrent : ∀ i r site w, executes ev = some i →
      Monitor.Executed (attending F agrees) p p' i r site w →
      ∀ id write d, F.pending ((attending F agrees).at_ r) site w = some (id, write) →
      F.view id p.store = some d → (F.checked site = true → ∃ read,
        F.view id ((attending F agrees).at_ r).seen = some read ∧
        (write read).Current agrees read) → (write d).Current agrees d) :
    Attended F agrees p' := by
  have hrely : (attending F agrees).Relies p ev := by cases ev <;> simp [Monitor.Relies, attending]
  refine ⟨Monitor.watchesAll_step h.watched (fun call _ _ => hentry call p.store) hrely hs, ?_⟩
  have hsame : (∀ id, F.view id p'.store = F.view id p.store) → AllSound F agrees p' :=
    fun heq id d hd => sound_extends (h.sound id d (heq id ▸ hd)) (step_extends hs)
  rcases h.watched.step_store hrely hs with ⟨i, r, site, w, hev, hdone⟩ | ⟨-, hstore⟩ | ⟨v, -, hm⟩
  · exact executed_sound h.sound (step_extends hs) hdone (hcurrent i r site w hev hdone)
  · exact hsame fun id => by rw [hstore]
  · exact hsame (hmove v _ _ _ _ hm)

theorem refers {p₀ : Pool App L Unit} (hruns : p₀.runs = [])
    (hblank : ∀ id d, F.view id p₀.store = some d → d.Blank) :
    Refers F agrees env (StillCurrent F agrees) p₀ := by
  intro p hreach id d t hd ht
  have hattended : Attended F agrees p := hreach.keeps
    (fun q ev q' hq hok hs => attended_step hentry hmove hq hs
      fun i r site w hev hdone id write d hpending hview _ => by
        obtain ⟨eff, k, hprog⟩ := hdone.prog
        exact hok i hev r site eff k hdone.live hprog w id write d hpending hview)
    (attended_start hruns hblank)
  exact (hattended.sound id d hd).confirmed ht

end Flows

/-! ### Both services -/

/-- What the rest of the system leaves alone of a venue. -/
def venueKey (v : Venue) : Uuid × Destination := (v.id, venueRecord v)

def entertainerKey (e : Entertainer) : Uuid × Option String × Destination :=
  (e.id, e.bankName, entertainerRecord e)

/-- Calls on venues, while the rest of the system does anything else. -/
def venueAccounts (toUpperCase : String → String) : Outside App VenueCall Unit Db where
  entry := VenueCall.program toUpperCase
  start _ _ x := some x
  move v db x := if v.venues.rows.map venueKey = db.venues.rows.map venueKey then some (v, x)
    else none

/-- The allowed calls on entertainers, while the rest of the system does anything else. -/
def entertainerAccounts (toUpperCase : String → String) (allowed : Call → Bool) :
    Outside App Call Unit Db where
  entry := Call.program toUpperCase
  start call _ x := if allowed call then some x else none
  move v db x :=
    if v.entertainers.rows.map entertainerKey = db.entertainers.rows.map entertainerKey then
      some (v, x) else none

/-- The three steps of onboarding that write the destination. -/
def Call.isStep : Call → Bool
  | .submitBankDetails _ _ | .resolveAccount _ | .confirmAccount _ _ => true
  | _ => false

variable {toUpperCase : String → String} {allowed : Call → Bool} {s s' : Db}

/-- Equal columns, row by row, are found alike. -/
lemma find_map_congr {α β : Type} {key : α → Uuid × β} {l l' : List α}
    (h : l.map key = l'.map key) (id : Uuid) :
    (l.find? fun r => (key r).1 == id).map key = (l'.find? fun r => (key r).1 == id).map key := by
  have hfind : ∀ l : List α, (l.find? fun r => (key r).1 == id).map key =
      (l.map key).find? (·.1 == id) := fun l => by
    rw [List.find?_map]; rfl
  rw [hfind, hfind, h]

lemma venueAccounts_move {v : Db} {x x' : Unit}
    (h : (venueAccounts toUpperCase).move v s x = some (s', x')) (id : Uuid) :
    venueView id s' = venueView id s := by
  simp only [venueAccounts] at h
  split at h
  · rename_i heq
    cases h
    have hkeys := congrArg (Option.map Prod.snd) (find_map_congr heq id)
    rw [Option.map_map, Option.map_map] at hkeys
    exact hkeys
  · cases h

lemma entertainerAccounts_move {v : Db} {x x' : Unit}
    (h : (entertainerAccounts toUpperCase allowed).move v s x = some (s', x')) (id : Uuid) :
    (s'.entertainers.find (·.id == id)).map entertainerKey =
      (s.entertainers.find (·.id == id)).map entertainerKey := by
  simp only [entertainerAccounts] at h
  split at h
  · rename_i heq
    cases h; exact find_map_congr heq id
  · cases h

lemma entertainerView_of_key (h : ∀ id, (s'.entertainers.find (·.id == id)).map entertainerKey =
    (s.entertainers.find (·.id == id)).map entertainerKey) (id : Uuid) :
    entertainerView id s' = entertainerView id s := by
  have hkeys := congrArg (Option.map fun k : Uuid × Option String × Destination => k.2.2) (h id)
  rw [Option.map_map, Option.map_map] at hkeys
  exact hkeys

/-- **Confirmations refer to what is stored**, for venues and for entertainers, as long as each
write of the three steps is current for the record it meets. -/
theorem confirmations_refer {db : Db} (hvenues : ∀ v ∈ db.venues.rows, (venueRecord v).Blank)
    (hentertainers : ∀ e ∈ db.entertainers.rows, (entertainerRecord e).Blank) :
    Refers venueFlow (Matches toUpperCase) (venueAccounts toUpperCase)
      (StillCurrent venueFlow (Matches toUpperCase)) ⟨db, (), []⟩ ∧
    Refers entertainerFlow (Matches toUpperCase) (entertainerAccounts toUpperCase Call.isStep)
      (StillCurrent entertainerFlow (Matches toUpperCase)) ⟨db, (), []⟩ := by
  constructor
  · refine refers (fun call db => venueProgram_course call db)
      (fun v s x s' x' hm id => venueAccounts_move hm id) rfl fun id d hd => ?_
    obtain ⟨v, hv, rfl⟩ := Option.map_eq_some_iff.mp hd
    exact hvenues v (Table.mem_of_find hv)
  · refine refers (fun call db => program_course call db)
      (fun v s x s' x' hm id => entertainerView_of_key (entertainerAccounts_move hm) id) rfl
      fun id d hd => ?_
    obtain ⟨e, he, rfl⟩ := Option.map_eq_some_iff.mp hd
    exact hentertainers e (Table.mem_of_find he)

/-! ### A run: an answer about another account -/

def newVenue : Venue := ⟨uid 2, "The Bar", "the-bar", true, none, none, none, none, none, none⟩

def newcomer : Entertainer := created ⟨"DJ Ada", "Ada Obi", "+2348000000001", none, none⟩ (uid 3)

def newcomersDb : Db where
  entertainers := ⟨[newcomer], by decide⟩
  venues := ⟨[newVenue], by decide⟩

def asciiUpperCase (s : String) : String := String.ofList (s.toList.map Char.toUpper)

theorem confirmations_refer_sample :
    Refers venueFlow (Matches asciiUpperCase) (venueAccounts asciiUpperCase)
      (StillCurrent venueFlow (Matches asciiUpperCase)) ⟨newcomersDb, (), []⟩ ∧
    Refers entertainerFlow (Matches asciiUpperCase) (entertainerAccounts asciiUpperCase Call.isStep)
      (StillCurrent entertainerFlow (Matches asciiUpperCase)) ⟨newcomersDb, (), []⟩ :=
  confirmations_refer (by simp [newcomersDb, newVenue, venueRecord, Record.Blank])
    (by simp [newcomersDb, newcomer, created, entertainerRecord, Record.Blank])

def anAccount (accountNumber : String) : BankDetails := ⟨none, some "058", accountNumber⟩

section Stale

variable {L : Type}

/-- Call 1 asks the bank about the first account; call 2 submits another; the answer is stored
and call 3 confirms it. `reads` says when the submissions read. -/
def staleAnswer (submit : String → L) (resolve confirm : L) (reads : List ℕ) :
    List (Event App L Db) :=
  .start (submit "0000000001") :: execs 0 [1] ++ asks 0 agreeable ++ execs 0 reads ++
    .start resolve :: execs 1 [4] ++ .send 1 ::
    .start (submit "0000000002") :: execs 2 [5] ++ asks 2 agreeable ++ execs 2 reads ++
    .answer 1 agreeable :: execs 1 [8] ++ .start confirm :: execs 3 [9, 10]

/-- Whether the bank gave this name for the account. -/
def bankSaid (p : Pool App L Unit) (about : Details) (name : String) : Bool :=
  p.runs.any fun r => r.log.any fun
    | .answered (.resolveAccount accountNumber bankCode) (.ok resolved) =>
      about == (some accountNumber, some bankCode) && name == resolved.accountName
    | _ => false

lemma bankSaid_of {p : Pool App L Unit} {about : Details} {name : String}
    (h : BankSaid p about name) : bankSaid p about name = true := by
  obtain ⟨r, hr, accountNumber, bankCode, resolved, rfl, rfl, hlog⟩ := h
  refine List.any_eq_true.mpr ⟨r, hr, List.any_eq_true.mpr ⟨_, hlog, ?_⟩⟩
  simp

/-- A destination confirmed with a name the bank never gave for it. -/
def misdirected (F : Flow L) (p : Pool App L Unit) (id : Uuid) : Bool :=
  (F.view id p.store).any fun d => d.confirmed.isSome &&
    d.answer.all fun name => !bankSaid p d.details name

lemma not_said_of_misdirected {F : Flow L} {p : Pool App L Unit} {id : Uuid}
    (h : misdirected F p id = true) : ∃ d t, F.view id p.store = some d ∧ d.confirmed = some t ∧
      ∀ name, d.answer = some name → ¬ BankSaid p d.details name := by
  obtain ⟨d, hd, hmis⟩ := (Option.any_eq_true _ _).mp h
  rw [Bool.and_eq_true] at hmis
  obtain ⟨t, ht⟩ := Option.isSome_iff_exists.mp hmis.1
  refine ⟨d, t, hd, ht, fun name hname hsaid => ?_⟩
  have hnot := hmis.2
  rw [hname] at hnot
  simp [bankSaid_of hsaid] at hnot

lemma not_refers {F : Flow L} {agrees : String → String → Prop} {env : Outside App L Unit Db}
    {p₀ : Pool App L Unit} (id : Uuid) (evs : List (Event App L Db))
    (h : ((run env p₀ evs).any fun p => misdirected F p id) = true) :
    ¬ Refers F agrees env anyEvent p₀ := by
  intro hrefers
  obtain ⟨p, hp, hmis⟩ := (Option.any_eq_true _ _).mp h
  obtain ⟨d, t, hd, ht, hnot⟩ := not_said_of_misdirected hmis
  obtain ⟨name, hname, hsaid, -⟩ := hrefers p (reach_of_run (along_any evs) hp) id d t hd ht
  exact hnot name hname hsaid

end Stale

/-- The bank's answer about the first account confirms the second. -/
theorem stale_answer_confirmed :
    ¬ Refers venueFlow (Matches asciiUpperCase) (venueAccounts asciiUpperCase) anyEvent
      ⟨newcomersDb, (), []⟩ ∧
    ¬ Refers entertainerFlow (Matches asciiUpperCase)
      (entertainerAccounts asciiUpperCase Call.isStep) anyEvent ⟨newcomersDb, (), []⟩ :=
  ⟨not_refers (uid 2) (staleAnswer (fun n => .submitBankDetails (uid 2) (anAccount n))
      (.resolveAccount (uid 2)) (.confirmAccount (uid 2) "Ada  Obi") [2, 3]) (by decide +kernel),
    not_refers (uid 3) (staleAnswer (fun n => .submitBankDetails (uid 3) (anAccount n))
      (.resolveAccount (uid 3)) (.confirmAccount (uid 3) "Ada  Obi") [2]) (by decide +kernel)⟩

end Splitcore.Onboarding
