import Splitcore.Confirmation.Record
import Splitcore.Onboarding.Entertainers
import Splitcore.Onboarding.VenueAccount

/-!
Payout destinations as records that the bank's answer is about.

Entertainers and venues carry the same columns, and the same three steps write them. A flow says
which columns those are and which write each statement makes; the invariant is proved once.
-/

namespace Splitcore.Onboarding

open Interleaving Confirmation

/-! ### Destinations -/

/-- The account number and the bank code. -/
abbrev Details := Option String × Option String

abbrev Destination := Record Details String Time

abbrev DestinationWrite := Write Details String Time String

/-- Names agree up to case and spacing. -/
def Matches (toUpperCase : String → String) (submitted name : String) : Prop :=
  normalizeName toUpperCase submitted = normalizeName toUpperCase name

lemma of_truthy {s : Option String} {t : String} (h : truthy s = some t) : s = some t :=
  (Option.filter_eq_some_iff.mp h).1

def entertainerRecord (e : Entertainer) : Destination :=
  ⟨(e.accountNumber, e.bankCode), e.resolvedAccountName, e.accountConfirmedAt⟩

def venueRecord (v : Venue) : Destination :=
  ⟨(v.accountNumber, v.bankCode), v.resolvedAccountName, v.accountConfirmedAt⟩

/-! ### What a call has heard -/

/-- The database as its last statement left it, the bank's answer, the bank list, and for a
payout the entertainer it read and the recipient it created. -/
structure Heard (L : Type) where
  label : L
  seen : Db
  told : Option (Details × String) := none
  banks : List Bank := []
  owner : Option Entertainer := none
  recipient : Option (RecipientParams × String) := none

def Heard.next {L : Type} (g : Heard L) : Did App → Heard L
  | .stmt (.resolveDestinationEntertainer id) _ s s' =>
    { g with seen := s', owner := s.entertainers.find (·.id == id) }
  | .stmt _ _ _ s' => { g with seen := s' }
  | .answered (.resolveAccount accountNumber bankCode) (.ok resolved) =>
    { g with told := some ((some accountNumber, some bankCode), resolved.accountName) }
  | .answered .listBanks (.ok banks) => { g with banks }
  | .answered (.createRecipient params) (.ok code) => { g with recipient := some (params, code) }
  | _ => g

@[simp] lemma Heard.next_label {L : Type} (g : Heard L) (d : Did App) :
    (g.next d).label = g.label := by
  unfold Heard.next
  split <;> rfl

@[simp] lemma Heard.next_seen {L : Type} (g : Heard L) (d : Did App) :
    (g.next d).seen = match d with
      | .stmt _ _ _ s' => s'
      | _ => g.seen := by
  cases d with
  | stmt site _ _ _ => cases site <;> rfl
  | asked _ => rfl
  | answered q a => cases q <;> cases a <;> rfl
  | failed _ _ => rfl

/-- Only one read tells a call who the owner is. -/
lemma Heard.next_owner {L : Type} {g : Heard L} {d : Did App} {e : Entertainer}
    (h : (g.next d).owner = some e) : g.owner = some e ∨ ∃ id w s s',
      d = .stmt (.resolveDestinationEntertainer id) w s s' ∧
      s.entertainers.find (·.id == id) = some e := by
  unfold Heard.next at h
  split at h
  · exact .inr ⟨_, _, _, _, rfl, h⟩
  all_goals exact .inl h

lemma Heard.foldl_owner {L : Type} {g : Heard L} {ds : List (Did App)} {e : Entertainer}
    (h : (ds.foldl Heard.next g).owner = some e) : g.owner = some e ∨ ∃ id w s s',
      .stmt (.resolveDestinationEntertainer id) w s s' ∈ ds ∧
      s.entertainers.find (·.id == id) = some e := by
  induction ds generalizing g with
  | nil => exact .inl h
  | cons d ds ih =>
    rcases ih h with hnext | ⟨id, w, s, s', hmem, hfind⟩
    · rcases Heard.next_owner hnext with ho | ⟨id, w, s, s', rfl, hfind⟩
      · exact .inl ho
      · exact .inr ⟨id, w, s, s', List.mem_cons_self, hfind⟩
    · exact .inr ⟨id, w, s, s', List.mem_cons_of_mem _ hmem, hfind⟩

/-- The bank gave this name for the account, to some call. -/
def BankSaid {L X : Type} (p : Pool App L X) (about : Details) (name : String) : Prop :=
  ∃ r ∈ p.runs, ∃ accountNumber bankCode resolved, about = (some accountNumber, some bankCode) ∧
    name = resolved.accountName ∧
    .answered (.resolveAccount accountNumber bankCode) (.ok resolved) ∈ r.log

/-- The bank was on a list some call got. -/
def BankListed {L X : Type} (p : Pool App L X) (bank : Bank) : Prop :=
  ∃ r ∈ p.runs, ∃ banks, bank ∈ banks ∧ .answered .listBanks (.ok banks) ∈ r.log

/-! ### Flows -/

/-- Which records there are, which write a statement of a call makes, and what the calls keep to
besides. -/
structure Flow (L : Type) where
  view : Uuid → Db → Option Destination
  /-- The name a call submits as the holder's. -/
  submitted : L → Option String
  confirms : Uuid → Site
  pending : Heard L → Site → Input → Option (Uuid × (Destination → DestinationWrite))
  /-- The statements whose calls decide on the write by the record they read. -/
  checked : Site → Bool
  also : Heard L → Site → Db → Db → Prop := fun _ _ _ _ => True
  asks : Heard L → Ask → Prop := fun _ _ => True
  also_refl : ∀ g site s, also g site s s := by intros; trivial
  /-- An answer is noted as it was given; a confirmation is its call's. -/
  backed : ∀ {g site w id write r}, pending g site w = some (id, write) → match write r with
    | .enter _ _ => True
    | .note about name => g.told = some (about, name)
    | .confirm name t => submitted g.label = some name ∧ site = confirms id ∧ w.now = t

variable {L X V : Type} (F : Flow L) (agrees : String → String → Prop)

/-- Some call that submitted a name that agrees executed its confirmation at that time. -/
def Agreed (p : Pool App L X) (id : Uuid) (t : Time) (name : String) : Prop :=
  ∃ r ∈ p.runs, ∃ submitted, F.submitted r.label = some submitted ∧ agrees submitted name ∧
    ∃ w s s', .stmt (F.confirms id) w s s' ∈ r.log ∧ w.now = t

def evidence (p : Pool App L X) (id : Uuid) : Evidence Details String Time :=
  ⟨BankSaid p, Agreed F agrees p id⟩

/-- What a statement does to destinations: nothing, a new blank one, or the write it is for,
which, if its call checks, was current for the record the call read. -/
inductive Acts (g : Heard L) (site : Site) (w : Input) (s s' : Db) : Prop
  | same (h : ∀ id, F.view id s' = F.view id s)
  | added (id : Uuid) (r : Destination) (hr : F.view id s' = some r) (hblank : r.Blank)
      (hothers : ∀ id' ≠ id, F.view id' s' = F.view id' s)
  | wrote (id : Uuid) (write : Destination → DestinationWrite) (r r' : Destination)
      (hpending : F.pending g site w = some (id, write)) (hr : F.view id s = some r)
      (happly : (write r).apply r = some r') (hr' : F.view id s' = some r')
      (hothers : ∀ id' ≠ id, F.view id' s' = F.view id' s)
      (hchecked : F.checked site = true → ∃ read, F.view id g.seen = some read ∧
        (write read).Current agrees read)

def attending : Monitor App L where
  State := Heard L
  init l s := { label := l, seen := s }
  next := Heard.next
  rely _ _ _ := True
  guar g site w s s' := Acts F agrees g site w s s' ∧ F.also g site s s'
  query := F.asks

variable {F agrees}

/-! ### Rules -/

section Rules

variable {α β : Type} {g : Heard L} {site : Site} {Q : Heard L → Except Err α → Prop}

/-- The program keeps to the flow. -/
abbrev Attends (F : Flow L) (agrees : String → String → Prop) (p : Prog App α) (g : Heard L) :
    Prop :=
  Obeys (attending F agrees) (fun _ _ => True) p g

lemma attends_query {f : Db → α} {k : α → Prog App β}
    (h : ∀ w s, Attends F agrees (k (f s)) (g.next (.stmt site w s s))) :
    Attends F agrees (query site f >>= k) g :=
  obeys_bind.mpr <| obeys_query (fun w s _ => ⟨⟨.same fun _ => rfl, F.also_refl _ _ _⟩, h w s⟩)
    fun _ _ => trivial

/-- A statement, whatever has to hold afterwards, if it holds however the statement fails. -/
lemma attends_command {m : Tx α}
    (h : ∀ w s a s', m.run w s = .ok (a, s') → Acts F agrees g site w s s' ∧
      F.also g site s s' ∧ Q (g.next (.stmt site w s s')) (.ok a))
    (he : ∀ g e, Q g (.error e)) : Obeys (attending F agrees) Q (statement site m) g :=
  obeys_command (fun w s a s' _ hm => by
      obtain ⟨h1, h2, h3⟩ := h w s a s' hm
      exact ⟨⟨h1, h2⟩, h3⟩)
    (fun _ _ _ _ _ => ⟨.same fun _ => rfl, F.also_refl _ _ _⟩) he

lemma attends_statement {m : Tx α} {k : α → Prog App β}
    (h : ∀ w s a s', m.run w s = .ok (a, s') → Acts F agrees g site w s s' ∧
      F.also g site s s' ∧ Attends F agrees (k a) (g.next (.stmt site w s s'))) :
    Attends F agrees (statement site m >>= k) g :=
  obeys_bind.mpr <| attends_command h fun _ _ => trivial

lemma attends_request {q : Ask} {k : Ans q → Prog App β} (hq : F.asks g q)
    (h : ∀ a, Attends F agrees (k a) ((g.next (.asked q)).next (.answered q (.ok a)))) :
    Attends F agrees (request q >>= k) g := by
  refine obeys_bind.mpr (obeys_request hq fun a => ?_)
  rcases a with e | a
  · trivial
  · exact h a

lemma attends_ofExcept {r : Except Err α} {k : α → Prog App β}
    (h : ∀ a, r = .ok a → Attends F agrees (k a) g) :
    Attends F agrees (.ofExcept r >>= k) g := by
  rcases r with e | a
  · trivial
  · exact h a rfl

lemma attends_attempt {p : Prog App α} {k : Except Err α → Prog App β}
    (h : Obeys (attending F agrees) (fun g r => Attends F agrees (k r) g) p g) :
    Attends F agrees (p.attempt >>= k) g :=
  obeys_bind.mpr (obeys_attempt.mpr h)

/-- What a call answers is not what it does. -/
lemma attends_void {p : Prog App α} (hp : Attends F agrees p g) :
    Attends F agrees (do let _ ← p) g :=
  obeys_bind.mpr <| hp.mono fun _ r _ => by cases r <;> trivial

end Rules

/-! ### What was heard is in the log -/

variable {p p' : Pool App L X} {r : Run App L} {about : Details} {name : String} {id : Uuid}

lemma heard_label (r : Run App L) : ((attending F agrees).at_ r).label = r.label :=
  Monitor.at_log (M := attending F agrees) (P := fun g _ => Heard.label g = r.label) r rfl
    fun g _ d hg => (Heard.next_label g d).trans hg

/-- What a call knows was answered to it. -/
def FromLog (g : Heard L) (log : List (Did App)) : Prop :=
  (∀ about name, g.told = some (about, name) → ∃ accountNumber bankCode resolved,
    about = (some accountNumber, some bankCode) ∧ name = resolved.accountName ∧
    .answered (.resolveAccount accountNumber bankCode) (.ok resolved) ∈ log) ∧
  (∀ bank ∈ g.banks, ∃ banks, bank ∈ banks ∧ .answered .listBanks (.ok banks) ∈ log) ∧
  ∀ params code, g.recipient = some (params, code) →
    .answered (.createRecipient params) (.ok code) ∈ log

lemma FromLog.grows {g g' : Heard L} {log : List (Did App)} {d : Did App} (h : FromLog g log)
    (htold : g'.told = g.told) (hbanks : g'.banks = g.banks)
    (hrecipient : g'.recipient = g.recipient) : FromLog g' (log ++ [d]) := by
  obtain ⟨h1, h2, h3⟩ := h
  refine ⟨fun about name ht => ?_, fun bank hb => ?_, fun params code hr => ?_⟩
  · obtain ⟨accountNumber, bankCode, resolved, ha, hn, hmem⟩ := h1 about name (htold ▸ ht)
    exact ⟨accountNumber, bankCode, resolved, ha, hn, List.mem_append_left _ hmem⟩
  · obtain ⟨banks, hmem, hlog⟩ := h2 bank (hbanks ▸ hb)
    exact ⟨banks, hmem, List.mem_append_left _ hlog⟩
  · exact List.mem_append_left _ (h3 params code (hrecipient ▸ hr))

lemma FromLog.next {g : Heard L} {log : List (Did App)} (h : FromLog g log) (d : Did App) :
    FromLog (g.next d) (log ++ [d]) := by
  have hkeep : FromLog g (log ++ [d]) := h.grows rfl rfl rfl
  unfold Heard.next
  split
  · exact h.grows rfl rfl rfl
  · exact h.grows rfl rfl rfl
  · refine ⟨fun about name ht => ?_, hkeep.2.1, hkeep.2.2⟩
    obtain ⟨rfl, rfl⟩ := Prod.mk.inj (Option.some.inj ht)
    exact ⟨_, _, _, rfl, rfl, by simp⟩
  · exact ⟨hkeep.1, fun bank hb => ⟨_, hb, by simp⟩, hkeep.2.2⟩
  · refine ⟨hkeep.1, hkeep.2.1, fun params code hr => ?_⟩
    obtain ⟨rfl, rfl⟩ := Prod.mk.inj (Option.some.inj hr)
    simp
  · exact hkeep

lemma heard_fromLog (r : Run App L) : FromLog ((attending F agrees).at_ r) r.log :=
  Monitor.at_log (M := attending F agrees) (P := FromLog) r
    (by simp [FromLog, attending])
    fun _ _ d h => h.next d

/-! ### Evidence only grows -/

lemma BankSaid.extends (h : BankSaid p about name) (hp : Extends p p') : BankSaid p' about name := by
  obtain ⟨r, hr, accountNumber, bankCode, resolved, ha, hn, hlog⟩ := h
  obtain ⟨r', hr', -, hpre⟩ := hp r hr
  exact ⟨r', hr', accountNumber, bankCode, resolved, ha, hn, hpre.subset hlog⟩

lemma BankListed.extends {bank : Bank} (h : BankListed p bank) (hp : Extends p p') :
    BankListed p' bank := by
  obtain ⟨r, hr, banks, hmem, hlog⟩ := h
  obtain ⟨r', hr', -, hpre⟩ := hp r hr
  exact ⟨r', hr', banks, hmem, hpre.subset hlog⟩

lemma Agreed.extends {t : Time} (h : Agreed F agrees p id t name) (hp : Extends p p') :
    Agreed F agrees p' id t name := by
  obtain ⟨r, hr, submitted, hsub, hagrees, w, s, s', hlog, hw⟩ := h
  obtain ⟨r', hr', hlabel, hpre⟩ := hp r hr
  exact ⟨r', hr', submitted, hlabel ▸ hsub, hagrees, w, s, s', hpre.subset hlog, hw⟩

lemma sound_extends {d : Destination} (h : d.Sound (evidence F agrees p id)) (hp : Extends p p') :
    d.Sound (evidence F agrees p' id) :=
  h.mono (fun _ _ hs => hs.extends hp) fun _ _ ha => ha.extends hp

/-! ### Every destination stays sound -/

/-- Every destination's name was given by the bank for it, and its confirmation agreed. -/
def AllSound (F : Flow L) (agrees : String → String → Prop) (p : Pool App L X) : Prop :=
  ∀ id d, F.view id p.store = some d → d.Sound (evidence F agrees p id)

/-- The write the event makes is current for the record it meets. -/
def StillCurrent (F : Flow L) (agrees : String → String → Prop) (p : Pool App L X)
    (ev : Event App L V) : Prop :=
  ∀ i, executes ev = some i → ∀ r site eff k, p.live i = some r → r.prog = .stmt site eff k →
    ∀ w id write d, F.pending ((attending F agrees).at_ r) site w = some (id, write) →
    F.view id p.store = some d → (write d).Current agrees d

variable {env : Outside App L X V} {ev : Event App L V}

/-- **One statement.** -/
theorem executed_sound {i : ℕ} {site : Site} {w : Input}
    (h : AllSound F agrees p) (hp : Extends p p')
    (hdone : Monitor.Executed (attending F agrees) p p' i r site w)
    (hcurrent : ∀ id write d, F.pending ((attending F agrees).at_ r) site w = some (id, write) →
      F.view id p.store = some d → (F.checked site = true → ∃ read,
        F.view id ((attending F agrees).at_ r).seen = some read ∧
        (write read).Current agrees read) → (write d).Current agrees d) :
    AllSound F agrees p' := by
  have hsame : ∀ id, F.view id p'.store = F.view id p.store →
      ∀ d, F.view id p'.store = some d → d.Sound (evidence F agrees p' id) :=
    fun id heq d hd => sound_extends (h id d (heq ▸ hd)) hp
  rcases hdone.guar.1 with heq | ⟨id, d, hd, hblank, hothers⟩ |
    ⟨id, write, d, d', hpending, hd, happly, hd', hothers, hchecked⟩
  · exact fun id => hsame id (heq id)
  · intro id' e he
    by_cases hid : id' = id
    · subst hid
      obtain rfl : d = e := Option.some.inj (hd.symm.trans he)
      exact hblank.sound
    · exact hsame id' (hothers id' hid) e he
  · intro id' e he
    by_cases hid : id' = id
    · subst hid
      obtain rfl : d' = e := Option.some.inj (hd'.symm.trans he)
      refine Write.sound (sound_extends (h id' d hd) hp)
        (hcurrent id' write d hpending hd hchecked) ?_ happly
      have hbacked := F.backed (r := d) hpending
      obtain ⟨r', hr', hlabel, hpre⟩ := hdone.logged
      -- the bank's answer is in the run's log, and now so is the confirmation
      cases hwrite : write d with
      | enter details keep => trivial
      | note about name =>
        rw [hwrite] at hbacked
        obtain ⟨accountNumber, bankCode, resolved, ha, hn, hlog⟩ :=
          (heard_fromLog r).1 about name hbacked
        exact ⟨r', hr', accountNumber, bankCode, resolved, ha, hn,
          hpre.subset (List.mem_append_left _ hlog)⟩
      | confirm submitted t =>
        rw [hwrite] at hbacked
        obtain ⟨hsub, hsite, hw⟩ := hbacked
        rw [heard_label] at hsub
        intro name hagrees
        refine ⟨r', hr', submitted, hlabel ▸ hsub, hagrees, w, p.store, p'.store, ?_, hw⟩
        exact hpre.subset (by simp [hsite])
    · exact hsame id' (hothers id' hid) e he

end Splitcore.Onboarding
