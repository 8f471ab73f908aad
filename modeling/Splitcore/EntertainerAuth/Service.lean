import Splitcore.App

/-!
Sign-in of entertainers by one-time links. Of a link's token only the hash is stored.
-/

namespace Splitcore.EntertainerAuth

open Interleaving

def LINK_TTL_MINUTES : ℤ := 30

def SESSION_TTL : String := "12h"

structure IssuedLoginLink where
  loginUrl : String
  token : String
  expiresAt : Time
deriving DecidableEq

structure EntertainerSession where
  accessToken : String
  entertainerId : Uuid
  stageName : String
deriving DecidableEq

/-- The addresses the deployment is configured with. -/
structure Config where
  FRONTEND_URL : Option String
  APP_URL : Option String

def withoutTrailingSlashes (url : String) : String :=
  String.ofList (url.toList.reverse.dropWhile (· == '/')).reverse

def buildLoginUrl (config : Config) (token : String) : String :=
  withoutTrailingSlashes ((config.FRONTEND_URL <|> config.APP_URL).getD "http://localhost:3000") ++
    "/entertainer/login/" ++ token

variable (hashToken : String → String) (config : Config)

/-! ### Links -/

/-- A token and when it expires. -/
def drawToken (entertainerId : Uuid) : Prog App (String × Time) :=
  statement (.issueLoginLinkToken entertainerId) do
    let token ← Tx.randomBytes
    let now ← Tx.now
    pure (token, now + LINK_TTL_MINUTES * 60000)

/-- Outstanding links of the entertainer stop working. -/
def supersede (entertainerId : Uuid) : Tx ℕ := do
  let now ← Tx.now
  Model.entertainerLoginToken.updateMany (fun t => t.entertainerId == entertainerId && t.consumedAt.isNone)
    fun t => { t with consumedAt := some now }

def createToken (entertainerId : Uuid) (tokenHash : String) (expiresAt : Time) : Tx Unit := do
  let id ← Tx.freshId
  Model.entertainerLoginToken.create ⟨id, entertainerId, tokenHash, expiresAt, none⟩

def issueLoginLink (entertainerId : Uuid) : Prog App IssuedLoginLink := do
  let found ← query (.issueLoginLinkEntertainer entertainerId) (·.entertainers.find (·.id == entertainerId))
  match found with
  | none => .raise (.notFound ("Entertainer " ++ String.ofList entertainerId.text ++ " not found"))
  | some entertainer =>
    if !entertainer.isActive then .raise (.unauthorized "This entertainer is not active")
    else do
      let drawn ← drawToken entertainerId
      let _ ← statement (.issueLoginLinkSupersede entertainerId) (supersede entertainerId)
      statement (.issueLoginLinkCreate entertainerId) (createToken entertainerId (hashToken drawn.1) drawn.2)
      pure ⟨buildLoginUrl config drawn.1, drawn.1, drawn.2⟩

/-! ### Sessions -/

/-- One error for a link that is expired, used or unknown. -/
def invalid : Err := .unauthorized "This login link is not valid or has expired."

def tokenWithEntertainer (tokenHash : String) (db : Db) : Option (EntertainerLoginToken × Entertainer) := do
  let candidate ← db.loginTokens.find (·.tokenHash == tokenHash)
  let entertainer ← db.entertainers.find (·.id == candidate.entertainerId)
  pure (candidate, entertainer)

/-- The token, if nobody has used it in between. -/
def claim (tokenId : Uuid) : Tx ℕ := do
  let now ← Tx.now
  Model.entertainerLoginToken.updateMany (fun t => t.id == tokenId && t.consumedAt.isNone)
    fun t => { t with consumedAt := some now }

def sessionPayload (entertainerId : Uuid) : JwtPayload := ⟨entertainerId, "", .ENTERTAINER, some entertainerId⟩

def openSession (candidate : EntertainerLoginToken) (entertainer : Entertainer) : Prog App EntertainerSession := do
  let count ← statement (.redeemClaim candidate.id) (claim candidate.id)
  if count = 0 then .raise invalid
  else do
    let accessToken ← request (.signAsync (sessionPayload candidate.entertainerId) SESSION_TTL)
    pure ⟨accessToken, candidate.entertainerId, entertainer.stageName⟩

def redeem (token : String) : Prog App EntertainerSession := do
  let found ← query (.redeemFind (hashToken token)) (tokenWithEntertainer (hashToken token))
  match found with
  | none => .raise invalid
  | some (candidate, entertainer) =>
    if hashToken token ≠ candidate.tokenHash then .raise invalid
    else if candidate.consumedAt.isSome then .raise invalid
    else do
      let now ← statement (.redeemNow candidate.id) Tx.now
      if candidate.expiresAt < now then .raise invalid
      else if !entertainer.isActive then .raise invalid
      else openSession candidate entertainer

/-! ### Calls beside each other -/

inductive LoginCall where
  | issueLoginLink (entertainerId : Uuid)
  | redeem (token : String)
deriving DecidableEq

def LoginCall.program : LoginCall → Prog App Unit
  | .issueLoginLink entertainerId => do
    let _ ← EntertainerAuth.issueLoginLink hashToken config entertainerId
    pure ()
  | .redeem token => do
    let _ ← EntertainerAuth.redeem hashToken token
    pure ()

/-- Any number of calls; nobody else writes login tokens, and the rest of the database may change. -/
def logins : Outside App LoginCall Unit Db where
  entry := LoginCall.program hashToken config
  start _ _ _ := some ()
  move db s _ := some ({ db with loginTokens := s.loginTokens }, ())

end Splitcore.EntertainerAuth
