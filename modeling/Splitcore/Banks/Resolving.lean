import Splitcore.Banks.Listing

/-!
The bank an input means, whatever the order of the list it is looked up in.
-/

namespace Splitcore.Banks

open Money Onboarding

/-! ### Lists with one candidate -/

/-- The element of a list that has one. -/
def only {α : Type} : List α → Option α
  | [a] => some a
  | _ => none

section
variable {α : Type} {l l' : List α} {a : α}

lemma only_eq_some : only l = some a ↔ l = [a] := by
  cases l with
  | nil => simp [only]
  | cons b l => cases l <;> simp [only]

lemma only_perm (h : l.Perm l') : only l = only l' := by
  ext a
  rw [only_eq_some, only_eq_some]
  exact ⟨fun hl => by rw [hl] at h; exact h.symm.eq_singleton, fun hl => by rw [hl] at h; exact h.eq_singleton⟩

/-- The only candidate of a list without duplicates. -/
lemma only_filter {p : α → Bool} (hl : l.Nodup) :
    only (l.filter p) = some a ↔ a ∈ l ∧ p a = true ∧ ∀ b ∈ l, p b = true → b = a := by
  rw [only_eq_some]
  constructor
  · intro hfilter
    have hmem : ∀ b, b ∈ l ∧ p b = true ↔ b = a := fun b => by
      rw [← List.mem_filter, hfilter, List.mem_singleton]
    exact ⟨((hmem a).mpr rfl).1, ((hmem a).mpr rfl).2, fun b hb hp => (hmem b).mp ⟨hb, hp⟩⟩
  · rintro ⟨ha, hpa, hothers⟩
    have hperm : (l.filter p).Perm [a] := by
      rw [List.perm_ext_iff_of_nodup (hl.filter p) (List.nodup_singleton a)]
      intro b
      rw [List.mem_filter, List.mem_singleton]
      exact ⟨fun ⟨hb, hp⟩ => hothers b hb hp, fun hba => hba ▸ ⟨ha, hpa⟩⟩
    exact hperm.eq_singleton

end

/-! ### The list at hand -/

/-- A list as `list()` gives it: with codes and names. -/
def Listed (banks : List Bank) : Prop := ∀ b ∈ banks, b.code ≠ "" ∧ b.name ≠ ""

variable {banks banks' : List Bank} {bank : Bank}

instance : Decidable (Listed banks) :=
  inferInstanceAs (Decidable (∀ b ∈ banks, b.code ≠ "" ∧ b.name ≠ ""))

lemma listed_usable {localeCompare : String → String → ℤ} (provided : List ProviderBank) :
    Listed (usable localeCompare provided) := by
  intro b hb
  obtain ⟨p, hp, rfl⟩ := List.mem_map.mp ((usable_perm provided).subset hb)
  have hpayable := (List.mem_filter.mp hp).2
  simp only [ProviderBank.payable, Bool.and_eq_true, bne_iff_ne, ne_eq] at hpayable
  exact ⟨hpayable.1.2, hpayable.2⟩

lemma listed_fallback : Listed FALLBACK_BANKS := by decide +kernel

/-- **What a caller of `list()` gets is listed.** -/
theorem listed_returns {localeCompare : String → String → ℤ} {now : ℤ} {evs : List Event} {ev : Event}
    {s s' : BanksService} (hrun : run localeCompare (.start now) evs = some s)
    (hstep : step localeCompare s ev = some s') (hret : s.Returns s' banks) : Listed banks := by
  have hsound : Sound s (yields localeCompare evs) := sound_run (sound_start now) hrun
  rcases hsound.returns (step_does hstep) hret with hlast | ⟨-, rfl⟩
  · obtain ⟨ev', -, hyielded⟩ := List.mem_filterMap.mp (List.mem_of_getLast? hlast)
    unfold Event.yielded at hyielded
    split at hyielded
    · rw [Option.filter_eq_some_iff, Option.some.injEq] at hyielded
      rw [← hyielded.1]
      exact listed_usable _
    · cases hyielded
  · exact listed_fallback

/-- A code finds the bank that has it, where codes are distinct. -/
lemma find_code (hcodes : (banks.map (·.code)).Nodup) {code : String} :
    banks.find? (·.code == code) = some bank ↔ bank ∈ banks ∧ bank.code = code := by
  constructor
  · intro hfind
    exact ⟨List.mem_of_find?_eq_some hfind, by simpa using List.find?_some hfind⟩
  · rintro ⟨hmem, rfl⟩
    cases hfind : banks.find? (·.code == bank.code) with
    | none => exact absurd hmem (fun hmem => by simpa using List.find?_eq_none.mp hfind bank hmem)
    | some bank' =>
      have hsame : bank'.code = bank.code := by simpa using List.find?_some hfind
      rw [List.inj_on_of_nodup_map hcodes (List.mem_of_find?_eq_some hfind) hmem hsame]

lemma find_code_perm (hcodes : (banks.map (·.code)).Nodup) (hperm : banks'.Perm banks) (code : String) :
    banks'.find? (·.code == code) = banks.find? (·.code == code) := by
  ext bank
  rw [find_code ((hperm.map _).nodup_iff.mpr hcodes), find_code hcodes, hperm.mem_iff]

/-! ### The layers -/

variable (toUpperCase : String → String)

/-- The bank's name is the input, as names are compared. -/
def sameName (name : String) (b : Bank) : Bool :=
  normalizeBankName toUpperCase b.name == normalizeBankName toUpperCase name

/-- The bank's name begins like the input, one of them going on. -/
def startsAlike (name : String) (b : Bank) : Bool :=
  (normalizeBankName toUpperCase name).toList.isPrefixOf (normalizeBankName toUpperCase b.name).toList ||
    (normalizeBankName toUpperCase b.name).toList.isPrefixOf (normalizeBankName toUpperCase name).toList

variable {toUpperCase} {name : String} {input : BankDetails}

/-- **The layers in their order**: the only bank of that name, the alias, the only bank whose name
starts alike. -/
lemma bankByName_toOption : (bankByName toUpperCase banks name).toOption =
    (only (banks.filter (sameName toUpperCase name))).or
      (((resolveBankCode (trim name)).bind fun code => banks.find? (·.code == code)).or
        (only (banks.filter (startsAlike toUpperCase name)))) := by
  simp only [bankByName]
  split
  · rename_i hexact
    have honly : only (banks.filter (sameName toUpperCase name)) = some _ := only_eq_some.mpr hexact
    rw [honly]; rfl
  · rename_i hexact
    have hnone : only (banks.filter (sameName toUpperCase name)) = none :=
      Option.eq_none_iff_forall_ne_some.mpr fun bank hsome => hexact bank (only_eq_some.mp hsome)
    rw [hnone, Option.none_or]
    split
    · rename_i halias
      rw [halias]; rfl
    · rename_i halias
      rw [halias, Option.none_or]
      split
      · rename_i hpartial
        exact (only_eq_some.mpr hpartial).symm
      · rename_i hpartial
        rw [show banks.filter (startsAlike toUpperCase name) = [] from hpartial]; rfl
      · rename_i hseveral hempty
        exact (Option.eq_none_iff_forall_ne_some.mpr fun bank hsome =>
          hseveral bank (only_eq_some.mp hsome)).symm

/-- What throws is a refused request. -/
lemma resolveBank_error {e : Err} (h : resolveBank toUpperCase banks input = .error e) :
    ∃ message, e = .badRequest message := by
  unfold resolveBank bankByName at h
  split at h
  · split at h <;> cases h; exact ⟨_, rfl⟩
  · cases h; exact ⟨_, rfl⟩
  · simp only at h
    split at h
    · cases h
    · split at h
      · cases h
      · split at h <;> cases h <;> exact ⟨_, rfl⟩

lemma resolveBank_code {code : String} (hcode : truthy input.bankCode = some code) :
    (resolveBank toUpperCase banks input).toOption = banks.find? (·.code == code) := by
  unfold resolveBank
  rw [hcode]
  dsimp only
  split
  · rename_i hfind
    rw [hfind]; rfl
  · rename_i hfind
    rw [hfind]; rfl

lemma resolveBank_name (hcode : truthy input.bankCode = none)
    (hname : truthy input.bankName = some name) :
    resolveBank toUpperCase banks input = bankByName toUpperCase banks name := by
  unfold resolveBank
  rw [hcode, hname]

/-- **The order of the list does not matter.** -/
theorem resolveBank_perm (hcodes : (banks.map (·.code)).Nodup) (hperm : banks'.Perm banks)
    (input : BankDetails) : (resolveBank toUpperCase banks' input).toOption =
      (resolveBank toUpperCase banks input).toOption := by
  cases hcode : truthy input.bankCode with
  | some code => rw [resolveBank_code hcode, resolveBank_code hcode, find_code_perm hcodes hperm]
  | none =>
    cases hname : truthy input.bankName with
    | none => simp only [resolveBank, hcode, hname]
    | some name =>
      rw [resolveBank_name hcode hname, resolveBank_name hcode hname, bankByName_toOption,
        bankByName_toOption, only_perm (hperm.filter _), only_perm (hperm.filter (startsAlike _ _))]
      simp only [find_code_perm hcodes hperm]

lemma ok_iff_toOption {outcome : Except Err Bank} : outcome = .ok bank ↔ outcome.toOption = some bank := by
  cases outcome <;> simp [Except.toOption]

lemma truthy_of_ne {s : String} (h : s ≠ "") : truthy (some s) = some s := by
  simp [truthy, Option.filter, h]

lemma resolveBank_own_code (hcodes : (banks.map (·.code)).Nodup) (hlisted : Listed banks)
    (hbank : bank ∈ banks) (hinput : input.bankCode = some bank.code) :
    resolveBank toUpperCase banks input = .ok bank := by
  have hcode : truthy input.bankCode = some bank.code := by
    rw [hinput, truthy_of_ne (hlisted bank hbank).1]
  rw [ok_iff_toOption, resolveBank_code hcode, find_code hcodes]
  exact ⟨hbank, rfl⟩

lemma resolveBank_own_name (hcodes : (banks.map (·.code)).Nodup) (hlisted : Listed banks)
    (hbank : bank ∈ banks) (hcode : truthy input.bankCode = none)
    (hinput : input.bankName = some bank.name)
    (honly : ∀ b ∈ banks, normalizeBankName toUpperCase b.name = normalizeBankName toUpperCase bank.name →
      b = bank) : resolveBank toUpperCase banks input = .ok bank := by
  have hname : truthy input.bankName = some bank.name := by
    rw [hinput, truthy_of_ne (hlisted bank hbank).2]
  have hexact : only (banks.filter (sameName toUpperCase bank.name)) = some bank := by
    rw [only_filter (List.Nodup.of_map _ hcodes)]
    refine ⟨hbank, by simp [sameName], fun b hb hsame => honly b hb ?_⟩
    simpa [sameName] using hsame
  rw [ok_iff_toOption, resolveBank_name hcode hname, bankByName_toOption, hexact, Option.some_or]

/-- Where neither a name nor an alias settles it, only one name that starts alike does. -/
lemma resolveBank_partial (hcodes : (banks.map (·.code)).Nodup) (hcode : truthy input.bankCode = none)
    (hname : truthy input.bankName = some name)
    (hother : ∀ b ∈ banks, normalizeBankName toUpperCase b.name ≠ normalizeBankName toUpperCase name)
    (halias : ∀ b ∈ banks, resolveBankCode (trim name) ≠ some b.code) :
    resolveBank toUpperCase banks input = .ok bank ↔ bank ∈ banks ∧
      startsAlike toUpperCase name bank = true ∧
      ∀ b ∈ banks, startsAlike toUpperCase name b = true → b = bank := by
  have hnoname : only (banks.filter (sameName toUpperCase name)) = none := by
    rw [List.filter_eq_nil_iff.mpr fun b hb => by simpa [sameName] using hother b hb]; rfl
  have hnoalias : ((resolveBankCode (trim name)).bind fun code => banks.find? (·.code == code)) = none := by
    cases hresolved : resolveBankCode (trim name) with
    | none => rfl
    | some code =>
      refine List.find?_eq_none.mpr fun b hb hsame => halias b hb ?_
      rw [hresolved, beq_iff_eq.mp hsame]
  rw [ok_iff_toOption, resolveBank_name hcode hname, bankByName_toOption, hnoname, hnoalias,
    Option.none_or, Option.none_or, only_filter (List.Nodup.of_map _ hcodes)]

/-- **Resolution is sound, order-independent and inverts the list**, for the lists that `list()`
gives, with distinct codes. -/
theorem resolveBank_spec (toUpperCase : String → String) (hcodes : (banks.map (·.code)).Nodup)
    (hlisted : Listed banks) :
    (∀ input, (∃ bank ∈ banks, resolveBank toUpperCase banks input = .ok bank) ∨
      ∃ message, resolveBank toUpperCase banks input = .error (.badRequest message)) ∧
    (∀ banks', banks'.Perm banks → ∀ input, (resolveBank toUpperCase banks' input).toOption =
      (resolveBank toUpperCase banks input).toOption) ∧
    (∀ bank ∈ banks, ∀ input : BankDetails, input.bankCode = some bank.code →
      resolveBank toUpperCase banks input = .ok bank) ∧
    (∀ bank ∈ banks, (∀ b ∈ banks, normalizeBankName toUpperCase b.name =
        normalizeBankName toUpperCase bank.name → b = bank) →
      ∀ input : BankDetails, truthy input.bankCode = none → input.bankName = some bank.name →
        resolveBank toUpperCase banks input = .ok bank) ∧
    ∀ (input : BankDetails) (name : String), truthy input.bankCode = none →
      truthy input.bankName = some name →
      (∀ b ∈ banks, normalizeBankName toUpperCase b.name ≠ normalizeBankName toUpperCase name) →
      (∀ b ∈ banks, resolveBankCode (trim name) ≠ some b.code) →
      ∀ bank, resolveBank toUpperCase banks input = .ok bank ↔ bank ∈ banks ∧
        startsAlike toUpperCase name bank = true ∧
        ∀ b ∈ banks, startsAlike toUpperCase name b = true → b = bank := by
  refine ⟨fun input => ?_, fun banks' hperm => resolveBank_perm hcodes hperm,
    fun bank hbank input => resolveBank_own_code hcodes hlisted hbank,
    fun bank hbank honly input hcode hname =>
      resolveBank_own_name hcodes hlisted hbank hcode hname honly,
    fun input name hcode hname hother halias bank =>
      resolveBank_partial hcodes hcode hname hother halias⟩
  cases hresult : resolveBank toUpperCase banks input with
  | ok bank => exact .inl ⟨bank, resolveBank_mem hresult, rfl⟩
  | error e =>
    obtain ⟨message, rfl⟩ := resolveBank_error hresult
    exact .inr ⟨message, rfl⟩

/-- Banks as the provider calls them. -/
def formal : List Bank :=
  [⟨"Guaranty Trust Bank", "058"⟩, ⟨"Access Bank", "044"⟩, ⟨"Access Bank (Diamond)", "063"⟩]

/-- Upper case, for the letters of these names. -/
def toUpper (s : String) : String := String.ofList (s.toList.map Char.toUpper)

theorem resolveBank_spec_sample :
    resolveBank toUpper formal ⟨some "Access Bank", none, "0123456789"⟩ = .ok ⟨"Access Bank", "044"⟩ ∧
    (resolveBank toUpper formal.reverse ⟨some "Access", none, "0123456789"⟩).toOption = none := by
  have hcodes : (formal.map (·.code)).Nodup := by decide
  have hlisted : Listed formal := by decide
  obtain ⟨-, hperm, -, hname, -⟩ := resolveBank_spec toUpper hcodes hlisted
  refine ⟨hname _ (by decide) (by decide +kernel) _ rfl rfl, ?_⟩
  rw [hperm _ formal.reverse_perm]
  decide +kernel

end Splitcore.Banks
