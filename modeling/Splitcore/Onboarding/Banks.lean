import Splitcore.Money.Payouts

/-!
Names as people and banks spell them, and the bank an input means.

What JavaScript's `toUpperCase` does to letters is a parameter.
-/

namespace Splitcore.Onboarding

open Money

/-! ### Text -/

/-- JavaScript's white space, line ends included. -/
def isSpace (c : Char) : Bool :=
  ['\t', '\n', '\x0b', '\x0c', '\r', ' ', '\u00a0', '\u1680', '\u2028', '\u2029', '\u202f',
    '\u205f', '\u3000', '\ufeff'].contains c || ('\u2000' ≤ c && c ≤ '\u200a')

def trim (s : String) : String :=
  String.ofList ((s.toList.dropWhile isSpace).reverse.dropWhile isSpace).reverse

/-- The parts between white space, without the empty ones. -/
def words (s : String) : List String :=
  ((s.toList.splitOnP isSpace).filter (· ≠ [])).map String.ofList

/-- `s.trim().replace(/\s+/g, ' ')`. -/
def singleSpaced (s : String) : String := " ".intercalate (words s)

variable (toUpperCase : String → String)

/-- Compared case- and spacing-insensitively. -/
def normalizeName (name : String) : String := toUpperCase (singleSpaced name)

/-- A character of a word, for the word boundaries of a regular expression. -/
def isWordChar (c : Char) : Bool := c.isAlphanum || c == '_'

/-- Without the words `PLC`, `LTD` and `LIMITED`. -/
def withoutForm (s : String) : String :=
  String.ofList (((s.toList.splitBy fun a b => isWordChar a == isWordChar b).filter fun word =>
    !(["PLC", "LTD", "LIMITED"].contains (String.ofList word))).flatten)

def normalizeBankName (name : String) : String :=
  singleSpaced (withoutForm (String.ofList ((toUpperCase (trim name)).toList.filter fun c =>
    !(['.', ',', '\'', '(', ')'].contains c))))

/-! ### The bank an input means -/

structure BankDetails where
  bankName : Option String
  bankCode : Option String
  accountNumber : String
deriving DecidableEq

/-- By an exact name, by a name everybody uses for the bank, or by the only name that starts
like it. -/
def bankByName (banks : List Bank) (bankName : String) : Except Err Bank :=
  let wanted := normalizeBankName toUpperCase bankName
  match banks.filter fun b => normalizeBankName toUpperCase b.name == wanted with
  | [bank] => .ok bank
  | _ =>
    match (resolveBankCode (trim bankName)).bind fun code => banks.find? (·.code == code) with
    | some bank => .ok bank
    | none =>
      match banks.filter fun b => wanted.toList.isPrefixOf (normalizeBankName toUpperCase b.name).toList ||
          (normalizeBankName toUpperCase b.name).toList.isPrefixOf wanted.toList with
      | [bank] => .ok bank
      | [] => .error (.badRequest ("\"" ++ bankName ++
          "\" is not a recognised bank. Pick one from GET /banks."))
      | several => .error (.badRequest ("\"" ++ bankName ++ "\" matches " ++
          toString several.length ++ " banks (" ++
          ", ".intercalate ((several.take 5).map (·.name)) ++
          "). Send an exact bankCode from GET /banks instead."))

/-- `BanksService.resolve` on the list it has at hand. -/
def resolveBank (banks : List Bank) (input : BankDetails) : Except Err Bank :=
  match truthy input.bankCode, truthy input.bankName with
  | some bankCode, _ =>
    match banks.find? (·.code == bankCode) with
    | some bank => .ok bank
    | none => .error (.badRequest ("Unknown bank code \"" ++ bankCode ++
        "\". Use a code from GET /banks."))
  | none, none => .error (.badRequest "Either bankName or bankCode is required.")
  | none, some bankName => bankByName toUpperCase banks bankName

variable {toUpperCase} {banks : List Bank} {bank : Bank}

lemma mem_of_filter_eq {p : Bank → Bool} {bs : List Bank} (h : banks.filter p = bs) (hb : bank ∈ bs) :
    bank ∈ banks := by
  rw [← h] at hb; exact List.mem_of_mem_filter hb

lemma bankByName_mem {bankName : String} (h : bankByName toUpperCase banks bankName = .ok bank) :
    bank ∈ banks := by
  simp only [bankByName] at h
  split at h
  · rename_i hexact
    cases h; exact mem_of_filter_eq hexact (by simp)
  split at h
  · rename_i halias
    cases h
    obtain ⟨code, -, hfind⟩ := Option.bind_eq_some_iff.mp halias
    exact List.mem_of_find?_eq_some hfind
  split at h
  · rename_i hpartial
    cases h; exact mem_of_filter_eq hpartial (by simp)
  · cases h
  · cases h

/-- **The bank is one of the list.** -/
theorem resolveBank_mem {input : BankDetails}
    (h : resolveBank toUpperCase banks input = .ok bank) : bank ∈ banks := by
  unfold resolveBank at h
  split at h
  · split at h
    · rename_i hfind
      cases h; exact List.mem_of_find?_eq_some hfind
    · cases h
  · cases h
  · exact bankByName_mem h

example : resolveBank (fun s => String.ofList (s.toList.map Char.toUpper))
    [⟨"Guaranty Trust Bank Plc.", "058"⟩, ⟨"Zenith Bank", "057"⟩]
    ⟨some " guaranty  trust bank ", none, "0123456789"⟩ = .ok ⟨"Guaranty Trust Bank Plc.", "058"⟩ := by
  decide +kernel

end Splitcore.Onboarding
