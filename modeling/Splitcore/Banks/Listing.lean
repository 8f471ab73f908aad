import Splitcore.Onboarding.Banks

/-!
The bank list and its cache: the calls of `list()` between whose steps anything may happen.

The order of names, JavaScript's `localeCompare`, is a parameter.
-/

namespace Splitcore.Banks

open Money

/-- Banks change rarely; a day-old list is fine. -/
def CACHE_TTL_MS : ℤ := 24 * 60 * 60 * 1000

/-- A bank as the provider reports it. -/
structure ProviderBank where
  name : String
  code : String
  active : Bool
  supportsTransfer : Bool
deriving DecidableEq

/-- What to offer when the provider is unreachable and nothing is cached yet. -/
def FALLBACK_BANKS : List Bank :=
  (["GTBank", "Access Bank", "First Bank", "UBA", "Zenith Bank", "Stanbic IBTC", "Sterling Bank",
    "Polaris Bank", "Wema Bank", "Union Bank", "Ecobank", "Fidelity Bank", "FCMB", "Kuda Bank",
    "Opay"]).filterMap fun name => (truthy (resolveBankCode name)).map fun code => ⟨name, code⟩

variable (localeCompare : String → String → ℤ)

/-- Where a transfer can actually go. -/
def ProviderBank.payable (b : ProviderBank) : Bool :=
  b.active && b.supportsTransfer && b.code != "" && b.name != ""

def ProviderBank.toBank (b : ProviderBank) : Bank := ⟨b.name, b.code⟩

/-- The banks to offer, sorted by name. -/
def usable (provided : List ProviderBank) : List Bank :=
  ((provided.filter (·.payable)).map (·.toBank)).insertionSort fun a b =>
    localeCompare a.name b.name ≤ 0

/-! ### The service -/

structure Cached where
  banks : List Bank
  fetchedAt : ℤ
deriving DecidableEq

/-- One run of `fetch()`: its request is under way; its promise has a list, and the `finally` that
clears the slot has still to run; that has run. -/
inductive Fetch where
  | pending
  | settled (banks : List Bank)
  | cleared (banks : List Bank)
deriving DecidableEq

/-- One call of `list()`: on the promise of a fetch, or returned. -/
inductive Call where
  | waiting (k : ℕ)
  | returned (banks : List Bank)
deriving DecidableEq

structure BanksService where
  now : ℤ
  cache : Option Cached
  inFlight : Option ℕ
  fetches : List Fetch
  calls : List Call
deriving DecidableEq

namespace BanksService

def start (now : ℤ) : BanksService := ⟨now, none, none, [], []⟩

/-- The cached list, while it is younger than a day. -/
def fresh (s : BanksService) : Option (List Bank) :=
  (s.cache.filter fun c => s.now - c.fetchedAt < CACHE_TTL_MS).map (·.banks)

/-- `list()`, as far as it runs without waiting. A fetch begins with its request. -/
def list (s : BanksService) : BanksService :=
  match s.fresh, s.inFlight with
  | some banks, _ => { s with calls := s.calls ++ [.returned banks] }
  | none, some k => { s with calls := s.calls ++ [.waiting k] }
  | none, none =>
    { s with inFlight := some s.fetches.length, fetches := s.fetches ++ [.pending],
             calls := s.calls ++ [.waiting s.fetches.length] }

/-- The `catch` of `fetch()`: a stale list rather than none, and the fallback is not cached. -/
def unavailable (s : BanksService) : List Bank := (s.cache.map (·.banks)).getD FALLBACK_BANKS

/-- The rest of `fetch()`, on the provider's answer. -/
def fetch (s : BanksService) (k : ℕ) : Except String (List ProviderBank) → BanksService
  | .ok provided =>
    let banks := usable localeCompare provided
    if banks = [] then { s with fetches := s.fetches.set k (.settled s.unavailable) }
    else { s with cache := some ⟨banks, s.now⟩, fetches := s.fetches.set k (.settled banks) }
  | .error _ => { s with fetches := s.fetches.set k (.settled s.unavailable) }

/-- No job of a settled promise is left: the slot is cleared and every caller has its list. -/
def idle (s : BanksService) : Bool :=
  s.fetches.all (fun f => match f with | .settled _ => false | _ => true) &&
  s.calls.all fun call => match call with
    | .returned _ => true
    | .waiting k => match s.fetches[k]? with | some (.cleared _) => false | _ => true

end BanksService

/-- What happens next: time passes, a call is made, the provider answers, a `finally` runs, a call
takes up again after its `await`. -/
inductive Event where
  | clock (now : ℤ)
  | list
  | answer (k : ℕ) (outcome : Except String (List ProviderBank))
  | clear (k : ℕ)
  | resume (i : ℕ)

/-- An answer comes over the network, so it is taken up when the jobs of what settled before it
have all run; between those jobs calls are made and time passes. -/
def step (s : BanksService) : Event → Option BanksService
  | .clock now => if s.now ≤ now then some { s with now } else none
  | .list => some s.list
  | .answer k outcome =>
    if s.idle && s.fetches[k]? == some .pending then some (s.fetch localeCompare k outcome) else none
  | .clear k =>
    match s.fetches[k]? with
    | some (.settled banks) =>
      some { s with inFlight := none, fetches := s.fetches.set k (.cleared banks) }
    | _ => none
  | .resume i =>
    match s.calls[i]? with
    | some (.waiting k) =>
      match s.fetches[k]? with
      | some (.cleared banks) => some { s with calls := s.calls.set i (.returned banks) }
      | _ => none
    | _ => none

def run (s : BanksService) (evs : List Event) : Option BanksService := evs.foldlM (step localeCompare) s

/-! ### What a step does -/

/-- The usable banks of an answer, where it has some. -/
def Event.yielded : Event → Option (List Bank)
  | .answer _ (.ok provided) => (some (usable localeCompare provided)).filter (· ≠ [])
  | _ => none

/-- One step, with what it needs. -/
inductive Does (s : BanksService) : Event → BanksService → Prop
  | clock (now : ℤ) (hnow : s.now ≤ now) : Does s (.clock now) { s with now }
  | returns (banks : List Bank) (hfresh : s.fresh = some banks) :
    Does s .list { s with calls := s.calls ++ [.returned banks] }
  | joins (k : ℕ) (hfresh : s.fresh = none) (hslot : s.inFlight = some k) :
    Does s .list { s with calls := s.calls ++ [.waiting k] }
  | starts (hfresh : s.fresh = none) (hslot : s.inFlight = none) :
    Does s .list { s with inFlight := some s.fetches.length, fetches := s.fetches ++ [.pending],
                          calls := s.calls ++ [.waiting s.fetches.length] }
  | fails (k : ℕ) (outcome : Except String (List ProviderBank)) (hidle : s.idle = true)
    (hk : s.fetches[k]? = some .pending)
    (hnone : (Event.answer k outcome).yielded localeCompare = none) :
    Does s (.answer k outcome) { s with fetches := s.fetches.set k (.settled s.unavailable) }
  | yields (k : ℕ) (outcome : Except String (List ProviderBank)) (banks : List Bank)
    (hidle : s.idle = true) (hk : s.fetches[k]? = some .pending)
    (hsome : (Event.answer k outcome).yielded localeCompare = some banks) (hne : banks ≠ []) :
    Does s (.answer k outcome)
      { s with cache := some ⟨banks, s.now⟩, fetches := s.fetches.set k (.settled banks) }
  | clear (k : ℕ) (banks : List Bank) (hk : s.fetches[k]? = some (.settled banks)) :
    Does s (.clear k) { s with inFlight := none, fetches := s.fetches.set k (.cleared banks) }
  | resume (i k : ℕ) (banks : List Bank) (hi : s.calls[i]? = some (.waiting k))
    (hk : s.fetches[k]? = some (.cleared banks)) :
    Does s (.resume i) { s with calls := s.calls.set i (.returned banks) }

variable {localeCompare} {s s' : BanksService} {ev : Event}

lemma does_list : Does localeCompare s .list s.list := by
  unfold BanksService.list
  split
  · rename_i hfresh
    exact .returns _ hfresh
  · rename_i hfresh hslot
    exact .joins _ hfresh hslot
  · rename_i hfresh hslot
    exact .starts hfresh hslot

lemma does_fetch {k : ℕ} {outcome : Except String (List ProviderBank)} (hidle : s.idle = true)
    (hk : s.fetches[k]? = some .pending) :
    Does localeCompare s (.answer k outcome) (s.fetch localeCompare k outcome) := by
  cases outcome with
  | error e => exact .fails k _ hidle hk rfl
  | ok provided =>
    by_cases hnone : usable localeCompare provided = []
    · simp only [BanksService.fetch, if_pos hnone]
      exact .fails k _ hidle hk (by simp [Event.yielded, Option.filter, hnone])
    · simp only [BanksService.fetch, if_neg hnone]
      exact .yields k _ _ hidle hk (by simp [Event.yielded, Option.filter, hnone]) hnone

lemma step_does (hstep : step localeCompare s ev = some s') : Does localeCompare s ev s' := by
  cases ev with
  | clock now =>
    simp only [step, Option.ite_none_right_eq_some, Option.some.injEq] at hstep
    obtain ⟨hnow, rfl⟩ := hstep
    exact .clock now hnow
  | list => cases hstep; exact does_list
  | answer k outcome =>
    simp only [step, Option.ite_none_right_eq_some, Option.some.injEq, Bool.and_eq_true,
      beq_iff_eq] at hstep
    obtain ⟨⟨hidle, hk⟩, rfl⟩ := hstep
    exact does_fetch hidle hk
  | clear k =>
    simp only [step] at hstep
    split at hstep
    · rename_i hk
      cases hstep; exact .clear k _ hk
    · cases hstep
  | resume i =>
    simp only [step] at hstep
    split at hstep
    · rename_i hi
      split at hstep
      · rename_i hk
        cases hstep; exact .resume i _ _ hi hk
      · cases hstep
    · cases hstep

/-! ### What a run has heard -/

/-- The lists that the fetches of a run yielded, in order. -/
def yields (localeCompare : String → String → ℤ) (evs : List Event) : List (List Bank) :=
  evs.filterMap (·.yielded localeCompare)

/-- What has been heard last, the static list where nothing has. -/
def Latest (ys : List (List Bank)) (banks : List Bank) : Prop :=
  ys.getLast? = some banks ∨ ys = [] ∧ banks = FALLBACK_BANKS

/-- What holds of a service that has heard `ys`. -/
structure Sound (s : BanksService) (ys : List (List Bank)) : Prop where
  /-- A fetch is in the slot until its `finally` clears it. -/
  slot : ∀ (k : ℕ) f, s.fetches[k]? = some f → (∀ banks, f ≠ .cleared banks) → s.inFlight = some k
  held : ∀ k, s.inFlight = some k → ∀ banks, s.fetches[k]? ≠ some (.cleared banks)
  cache : s.cache.map (·.banks) = ys.getLast?
  nonempty : ∀ banks ∈ ys, banks ≠ []
  settled : ∀ (k : ℕ) banks, s.fetches[k]? = some (.settled banks) → Latest ys banks
  owed : ∀ (i k : ℕ) banks, s.calls[i]? = some (.waiting k) → s.fetches[k]? = some (.cleared banks) →
    Latest ys banks

variable {ys : List (List Bank)} {banks : List Bank}

lemma sound_start (now : ℤ) : Sound (.start now) [] := by
  constructor <;> simp [BanksService.start]

lemma Sound.unavailable (h : Sound s ys) : Latest ys s.unavailable := by
  unfold BanksService.unavailable
  rw [h.cache]
  cases hlast : ys.getLast? with
  | none => exact .inr ⟨List.getLast?_eq_none_iff.mp hlast, rfl⟩
  | some banks => exact .inl hlast

lemma Sound.fresh (h : Sound s ys) (hfresh : s.fresh = some banks) : ys.getLast? = some banks := by
  obtain ⟨c, hc, hbanks⟩ := Option.map_eq_some_iff.mp hfresh
  rw [← h.cache, (Option.filter_eq_some_iff.mp hc).1, ← hbanks]; rfl

lemma Sound.latest_ne_nil (h : Sound s ys) (hlatest : Latest ys banks) : banks ≠ [] := by
  rcases hlatest with hlast | ⟨-, rfl⟩
  · exact h.nonempty banks (List.mem_of_getLast? hlast)
  · decide

lemma Sound.pending_unique (h : Sound s ys) {j k : ℕ} (hj : s.fetches[j]? = some .pending)
    (hk : s.fetches[k]? = some .pending) : j = k := by
  have hslot := (h.slot j _ hj (fun _ hf => by cases hf)).symm.trans
    (h.slot k _ hk fun _ hf => by cases hf)
  exact Option.some.inj hslot

/-- A fetch settles with what has been heard last, its own answer included. -/
lemma Sound.settle {k : ℕ} {ys' : List (List Bank)} (h : Sound s ys) (cache : Option Cached)
    (hk : s.fetches[k]? = some .pending) (hidle : s.idle = true)
    (hcache : cache.map (·.banks) = ys'.getLast?) (hys : ∀ banks ∈ ys', banks ≠ [])
    (hlatest : Latest ys' banks) :
    Sound { s with cache, fetches := s.fetches.set k (.settled banks) } ys' := by
  have hslot := h.slot
  have hheld := h.held
  simp only [BanksService.idle, Bool.and_eq_true, List.all_eq_true] at hidle
  obtain ⟨hfetches, hcalls⟩ := hidle
  refine ⟨by grind, by grind, hcache, hys, ?_, ?_⟩
  · intro j banks' hj
    by_cases hjk : j = k
    · grind
    · have hmem := List.mem_of_getElem? (l := s.fetches) (i := j) (a := .settled banks') (by grind)
      simpa using hfetches _ hmem
  · -- no call is owed a list of an earlier fetch, which may be older
    intro i j banks' hi hj
    have hcall := hcalls _ (List.mem_of_getElem? hi)
    grind

lemma sound_step (h : Sound s ys) (hdoes : Does localeCompare s ev s') :
    Sound s' (ys ++ (ev.yielded localeCompare).toList) := by
  have hslot := h.slot
  have howed := h.owed
  cases hdoes with
  | clock now hnow =>
    simp only [Event.yielded, Option.toList_none, List.append_nil]
    exact ⟨h.slot, h.held, h.cache, h.nonempty, h.settled, h.owed⟩
  | returns banks hfresh =>
    simp only [Event.yielded, Option.toList_none, List.append_nil]
    exact ⟨h.slot, h.held, h.cache, h.nonempty, h.settled, by grind⟩
  | joins k hfresh hk =>
    have hheld := h.held k hk
    simp only [Event.yielded, Option.toList_none, List.append_nil]
    exact ⟨h.slot, h.held, h.cache, h.nonempty, h.settled, by grind⟩
  | starts hfresh hempty =>
    -- the slot was empty, so every earlier fetch has cleared it
    simp only [Event.yielded, Option.toList_none, List.append_nil]
    exact ⟨by grind, by grind, h.cache, h.nonempty, by grind [h.settled], by grind⟩
  | fails k outcome hidle hk hnone =>
    rw [hnone, Option.toList_none, List.append_nil]
    exact h.settle s.cache hk hidle h.cache h.nonempty h.unavailable
  | yields k outcome banks hidle hk hsome hne =>
    rw [hsome, Option.toList_some]
    refine h.settle (some ⟨banks, s.now⟩) hk hidle List.getLast?_concat.symm ?_ (.inl List.getLast?_concat)
    simp only [List.mem_append, List.mem_singleton]
    rintro banks' (hold | rfl)
    · exact h.nonempty banks' hold
    · exact hne
  | clear k banks hk =>
    have hlatest := h.settled k banks hk
    simp only [Event.yielded, Option.toList_none, List.append_nil]
    exact ⟨by grind, by simp, h.cache, h.nonempty, by grind [h.settled], by grind⟩
  | resume i k banks hi hk =>
    simp only [Event.yielded, Option.toList_none, List.append_nil]
    exact ⟨h.slot, h.held, h.cache, h.nonempty, h.settled, by grind⟩

/-- **What has been heard decides** the cache and what every waiting call will get. -/
theorem sound_run {evs : List Event} (h : Sound s ys) (hrun : run localeCompare s evs = some s') :
    Sound s' (ys ++ yields localeCompare evs) := by
  induction evs generalizing s ys with
  | nil =>
    cases hrun
    simpa [yields] using h
  | cons ev evs ih =>
    obtain ⟨s₁, hstep, hrest⟩ := Option.bind_eq_some_iff.mp hrun
    have hnext := ih (sound_step h (step_does hstep)) hrest
    rw [List.append_assoc] at hnext
    convert hnext using 2
    cases hy : ev.yielded localeCompare <;> simp [yields, hy]

/-! ### The lists callers get -/

/-- The step hands a caller the list. -/
def BanksService.Returns (s s' : BanksService) (banks : List Bank) : Prop :=
  ∃ i : ℕ, s'.calls[i]? = some (.returned banks) ∧ s.calls[i]? ≠ some (.returned banks)

/-- A list is the fresh cache, or that of the fetch the call waited for. -/
lemma Sound.returns (h : Sound s ys) (hdoes : Does localeCompare s ev s')
    (hret : s.Returns s' banks) : Latest ys banks := by
  obtain ⟨i, hi, hnot⟩ := hret
  cases hdoes with
  | returns banks' hfresh =>
    have hlast := h.fresh hfresh
    exact .inl (by grind)
  | joins k hfresh hslot => grind
  | starts hfresh hslot => grind
  | resume j k banks' hj hk =>
    have hlatest := h.owed j k banks' hj hk
    grind
  | clock | fails | yields | clear => exact absurd hi hnot

/-- A request is only ever started where the cache is not fresh. -/
lemma starts_stale (hdoes : Does localeCompare s ev s')
    (hstarts : s.fetches.length < s'.fetches.length) : s.fresh = none := by
  cases hdoes with
  | starts hfresh hslot => exact hfresh
  | clock | returns | joins | fails | yields | clear | resume => simp at hstarts

lemma stale_age {c : Cached} (hstale : s.fresh = none) (hc : s.cache = some c) :
    CACHE_TTL_MS ≤ s.now - c.fetchedAt := by
  by_contra hyoung
  simp [BanksService.fresh, hc, Option.filter, not_le.mp hyoung] at hstale

lemma usable_perm (provided : List ProviderBank) :
    (usable localeCompare provided).Perm ((provided.filter (·.payable)).map (·.toBank)) :=
  List.perm_insertionSort _ _

lemma usable_sorted (htotal : ∀ a b, localeCompare a b ≤ 0 ∨ localeCompare b a ≤ 0)
    (htrans : ∀ a b c, localeCompare a b ≤ 0 → localeCompare b c ≤ 0 → localeCompare a c ≤ 0)
    (provided : List ProviderBank) :
    (usable localeCompare provided).Pairwise fun a b => localeCompare a.name b.name ≤ 0 := by
  have : Std.Total fun a b : Bank => localeCompare a.name b.name ≤ 0 := ⟨fun a b => htotal _ _⟩
  have : IsTrans Bank fun a b => localeCompare a.name b.name ≤ 0 := ⟨fun a b c => htrans _ _ _⟩
  exact List.pairwise_insertionSort _ _

/-- **The bank list cache is sound**, for an order of names that can be sorted by: one request at a
time; a cache that is the last list heard; callers that get this list, or the static one where
none has been heard; no request while the cache is fresh. -/
theorem list_sound (htotal : ∀ a b, localeCompare a b ≤ 0 ∨ localeCompare b a ≤ 0)
    (htrans : ∀ a b c, localeCompare a b ≤ 0 → localeCompare b c ≤ 0 → localeCompare a c ≤ 0)
    {now : ℤ} {evs : List Event} (hrun : run localeCompare (.start now) evs = some s) :
    (∀ provided, (usable localeCompare provided).Perm
        ((provided.filter (·.payable)).map (·.toBank)) ∧
      (usable localeCompare provided).Pairwise fun a b => localeCompare a.name b.name ≤ 0) ∧
    (∀ j k : ℕ, s.fetches[j]? = some .pending → s.fetches[k]? = some .pending → j = k) ∧
    (∀ c, s.cache = some c → (yields localeCompare evs).getLast? = some c.banks) ∧
    ∀ ev s', step localeCompare s ev = some s' →
      (∀ banks, s.Returns s' banks → banks ≠ [] ∧
        ((yields localeCompare evs).getLast? = some banks ∨
          yields localeCompare evs = [] ∧ banks = FALLBACK_BANKS)) ∧
      (s.fetches.length < s'.fetches.length →
        ∀ c, s.cache = some c → CACHE_TTL_MS ≤ s.now - c.fetchedAt) := by
  have hsound : Sound s (yields localeCompare evs) := sound_run (sound_start now) hrun
  refine ⟨fun provided => ⟨usable_perm provided, usable_sorted htotal htrans provided⟩,
    fun j k => hsound.pending_unique, ?_, ?_⟩
  · intro c hc
    rw [← hsound.cache, hc]; rfl
  · intro ev s' hstep
    have hdoes := step_does hstep
    refine ⟨fun banks hret => ?_, fun hstarts c hc => stale_age (starts_stale hdoes hstarts) hc⟩
    have hlatest := hsound.returns hdoes hret
    exact ⟨hsound.latest_ne_nil hlatest, hlatest⟩

/-- Names in the order of their characters. -/
def byCharacter (a b : String) : ℤ := if a ≤ b then if b ≤ a then 0 else -1 else 1

lemma byCharacter_nonpos {a b : String} : byCharacter a b ≤ 0 ↔ a ≤ b := by
  unfold byCharacter
  split_ifs <;> simp_all

/-- Two calls on one request, whose answer has a bank that is not active. -/
def twoCalls : List Event :=
  [.list, .list, .answer 0 (.ok [⟨"Zenith Bank", "057", true, true⟩,
    ⟨"Dead Bank", "111", false, true⟩, ⟨"Access Bank", "044", true, true⟩]), .clear 0]

theorem list_sound_sample : ∃ s s' : BanksService, run byCharacter (.start 0) twoCalls = some s ∧
    step byCharacter s (.resume 1) = some s' ∧
    (∀ j k : ℕ, s.fetches[j]? = some .pending → s.fetches[k]? = some .pending → j = k) ∧
    ∀ banks, s.Returns s' banks → banks = [⟨"Access Bank", "044"⟩, ⟨"Zenith Bank", "057"⟩] := by
  let banks : List Bank := [⟨"Access Bank", "044"⟩, ⟨"Zenith Bank", "057"⟩]
  have hrun : run byCharacter (.start 0) twoCalls =
      some ⟨0, some ⟨banks, 0⟩, none, [.cleared banks], [.waiting 0, .waiting 0]⟩ := by decide +kernel
  have hyields : yields byCharacter twoCalls = [banks] := by decide +kernel
  obtain ⟨-, hone, -, hlists⟩ := list_sound
    (fun a b => by simpa only [byCharacter_nonpos] using String.le_total a b)
    (fun a b c => by simpa only [byCharacter_nonpos] using String.le_trans) hrun
  refine ⟨_, _, hrun, rfl, hone, fun banks' hret => ?_⟩
  obtain ⟨-, hlast | ⟨hnone, -⟩⟩ := (hlists (.resume 1) _ rfl).1 banks' hret
  · rw [hyields] at hlast
    exact (Option.some.inj hlast).symm
  · rw [hyields] at hnone
    exact absurd hnone (List.cons_ne_nil _ _)

end Splitcore.Banks
