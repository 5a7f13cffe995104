import InglMonitor.ChainAccess
import InglMonitor.DocumentStore
import Mathlib.Data.Rat.Defs

/-! Signing in with an access code. The body is any JSON; of its two fields only `usage` is checked
before both become the filter of a query. How the database evaluates a filter value is a library
function, given as a parameter. -/

open DocumentStore

namespace InglMonitor

inductive Json where
  | null
  | bool (b : Bool)
  | num (n : ℚ)
  | str (s : String)
  | arr (elements : List Json)
  | obj (fields : List (String × Json))

namespace Json

def truthy : Json → Bool
  | null => false
  | bool b => b
  | num n => n ≠ 0
  | str s => s ≠ ""
  | arr _ | obj _ => true

/-- A property of a request body. -/
def field (body : Json) (name : String) : Option Json :=
  match body with
  | obj fields => fields.lookup name
  | _ => none

end Json

structure BetaAccess where
  accessCode : String
  usage : ProgramUsage
  baseUrl : String
  localUrl : String
  deriving DecidableEq

/-- The condition that a filter value puts on a stored string; `none` is a cast error. -/
abbrev StringFilter := Json → Option (String → Bool)

/-- A string is matched by equality. -/
def StringFilter.MatchesStrings (stringFilter : StringFilter) : Prop :=
  ∀ code, stringFilter (.str code) = some fun stored => decide (stored = code)

/-- The claims of a signed token. -/
structure TokenClaims where
  baseUrl : String
  localUrl : String
  usage : ProgramUsage
  deriving DecidableEq

def unauthorizedException : HttpException := ⟨"Unauthorized", .unauthorized⟩

/-- An error that is no `HttpException`. -/
def internalServerError : HttpException := ⟨"Internal server error", .internalServerError⟩

variable (stringFilter : StringFilter) (records : List BetaAccess)

namespace BetaAccessService

/-- `findOne({ accessCode, usage })`. -/
def getAccess (usage : ProgramUsage) (accessCode : Json) : Except HttpException (Option BetaAccess) :=
  match stringFilter accessCode with
  | none => .error internalServerError
  | some condition =>
      .ok (findOne (fun record => condition record.accessCode && record.usage = usage) records)

end BetaAccessService

namespace AuthService

def validateCode (usage : ProgramUsage) (accessCode : Json) :
    Except HttpException (Option BetaAccess) :=
  BetaAccessService.getAccess stringFilter records usage accessCode

def signIn (user : BetaAccess) : TokenClaims where
  baseUrl := user.baseUrl
  localUrl := user.localUrl
  usage := user.usage

end AuthService

namespace LocalStrategy

/-- `isEnum(usage, ProgramUsage)`, with the member it is. -/
def isEnum : Json → Option ProgramUsage
  | .str s => [ProgramUsage.marketplace, .permissionlessValidator].find? fun usage => usage.text = s
  | _ => none

def validate (usage accessCode : Json) : Except HttpException BetaAccess :=
  match isEnum usage with
  | none => .error ⟨"usage must either be " ++ ProgramUsage.marketplace.text ++ " or " ++
      ProgramUsage.permissionlessValidator.text, .badRequest⟩
  | some usage => do
      match ← AuthService.validateCode stringFilter records usage accessCode with
      | none => throw unauthorizedException
      | some user => return user

/-- The guard: both fields must be there and truthy, and are passed on unchanged. -/
def authenticate (body : Json) : Except HttpException BetaAccess :=
  match (body.field "usage").filter Json.truthy, (body.field "accessCode").filter Json.truthy with
  | some usage, some accessCode => validate stringFilter records usage accessCode
  | _, _ => .error unauthorizedException

end LocalStrategy

/-- `POST auth/sign-in`. -/
def AuthController.singIn (body : Json) : Except HttpException TokenClaims := do
  let user ← LocalStrategy.authenticate stringFilter records body
  return AuthService.signIn user

/-! ### Which requests get a token -/

/-- A token is issued only for the access code of a record of the submitted usage, with the claims of
such a record. -/
def SignInSound (body : Json) : Prop :=
  ∀ token, AuthController.singIn stringFilter records body = .ok token →
    ∃ code usage, body.field "accessCode" = some (.str code) ∧
      body.field "usage" = some (.str (ProgramUsage.text usage)) ∧
      ∃ record ∈ records, record.accessCode = code ∧ record.usage = usage ∧
        token = ⟨record.baseUrl, record.localUrl, record.usage⟩

/-- A code that is not a string meets no stored code of the submitted usage. -/
def OnlyStringsMatch (body : Json) : Prop :=
  ∀ accessCode usage condition, body.field "accessCode" = some accessCode → accessCode.truthy →
    body.field "usage" = some (.str (ProgramUsage.text usage)) →
    stringFilter accessCode = some condition →
    (∃ code, accessCode = .str code) ∨
      ∀ record ∈ records, record.usage = usage → condition record.accessCode = false

variable {stringFilter records}

theorem isEnum_eq_some_iff {value : Json} {usage : ProgramUsage} :
    LocalStrategy.isEnum value = some usage ↔ value = .str usage.text := by
  cases value with
  | str s => cases usage <;> simp [LocalStrategy.isEnum, List.find?, ProgramUsage.text] <;> grind
  | _ => simp [LocalStrategy.isEnum]

theorem text_truthy (usage : ProgramUsage) : (Json.str usage.text).truthy = true := by
  cases usage <;> simp [Json.truthy, ProgramUsage.text]

theorem validate_eq_ok_iff {usage accessCode : Json} {user : BetaAccess} :
    LocalStrategy.validate stringFilter records usage accessCode = .ok user ↔
      ∃ member condition, usage = .str (ProgramUsage.text member) ∧
        stringFilter accessCode = some condition ∧
        findOne (fun record => condition record.accessCode && record.usage = member) records =
          some user := by
  rw [LocalStrategy.validate]
  cases hmember : LocalStrategy.isEnum usage with
  | none =>
      refine iff_of_false (fun h => nomatch h) ?_
      rintro ⟨member, -, husage, -⟩
      rw [isEnum_eq_some_iff.mpr husage] at hmember
      cases hmember
  | some member =>
      simp only [bind_eq_ok, AuthService.validateCode, BetaAccessService.getAccess]
      constructor
      · rintro ⟨found, hfound, hreturn⟩
        split at hfound
        · cases hfound
        · rename_i condition hcondition
          cases hfound
          split at hreturn
          · cases hreturn
          · rename_i record hrecord
            cases hreturn
            exact ⟨member, condition, isEnum_eq_some_iff.mp hmember, hcondition, hrecord⟩
      · rintro ⟨member', condition, husage, hcondition, hrecord⟩
        rw [isEnum_eq_some_iff.mpr husage] at hmember
        cases hmember
        exact ⟨some user, by rw [hcondition]; exact congrArg Except.ok hrecord, rfl⟩

theorem authenticate_eq_ok_iff {body : Json} {user : BetaAccess} :
    LocalStrategy.authenticate stringFilter records body = .ok user ↔
      ∃ usage accessCode, body.field "usage" = some usage ∧ usage.truthy ∧
        body.field "accessCode" = some accessCode ∧ accessCode.truthy ∧
        LocalStrategy.validate stringFilter records usage accessCode = .ok user := by
  rw [LocalStrategy.authenticate]
  constructor
  · intro h
    split at h
    · rename_i usage accessCode husage hcode
      obtain ⟨husage, htruthy⟩ := Option.filter_eq_some_iff.mp husage
      obtain ⟨hcode, htruthy'⟩ := Option.filter_eq_some_iff.mp hcode
      exact ⟨usage, accessCode, husage, htruthy, hcode, htruthy', h⟩
    · cases h
  · rintro ⟨usage, accessCode, husage, htruthy, hcode, htruthy', h⟩
    rw [husage, hcode, Option.filter_some, Option.filter_some, if_pos htruthy, if_pos htruthy']
    exact h

/-- A token is issued exactly for the first record of the submitted usage that meets the condition. -/
theorem singIn_eq_ok_iff {body : Json} {token : TokenClaims} :
    AuthController.singIn stringFilter records body = .ok token ↔
      ∃ accessCode usage condition record, body.field "accessCode" = some accessCode ∧
        accessCode.truthy ∧ body.field "usage" = some (.str (ProgramUsage.text usage)) ∧
        stringFilter accessCode = some condition ∧
        findOne (fun record => condition record.accessCode && record.usage = usage) records =
          some record ∧
        token = ⟨record.baseUrl, record.localUrl, record.usage⟩ := by
  simp only [AuthController.singIn, bind_eq_ok, authenticate_eq_ok_iff, validate_eq_ok_iff]
  constructor
  · rintro ⟨user, ⟨_, accessCode, husage, -, hcode, htruthy, member, condition, rfl, hcondition, hfound⟩,
      hreturn⟩
    cases hreturn
    exact ⟨accessCode, member, condition, user, hcode, htruthy, husage, hcondition, hfound, rfl⟩
  · rintro ⟨accessCode, usage, condition, record, hcode, htruthy, husage, hcondition, hfound, rfl⟩
    exact ⟨record, ⟨_, accessCode, husage, text_truthy usage, hcode, htruthy, usage, condition, rfl,
      hcondition, hfound⟩, rfl⟩

/-- **Sound sign-in.** It is sound for a body exactly when the access code is a string or meets no stored
code. -/
theorem signInSound_iff (hstrings : stringFilter.MatchesStrings) (body : Json) :
    SignInSound stringFilter records body ↔ OnlyStringsMatch stringFilter records body := by
  constructor
  · intro hsound accessCode usage condition hcode htruthy husage hcondition
    rw [or_iff_not_imp_right]
    intro hmatch
    obtain ⟨record, hrecord, hsame, hmeets⟩ : ∃ record ∈ records, record.usage = usage ∧
        condition record.accessCode = true := by simpa using hmatch
    have hsome : (findOne (fun record => condition record.accessCode && record.usage = usage)
        records).isSome := List.find?_isSome.mpr ⟨record, hrecord, by simp [hsame, hmeets]⟩
    obtain ⟨found, hfound⟩ := Option.isSome_iff_exists.mp hsome
    obtain ⟨code, -, hstring, -⟩ := hsound _ (singIn_eq_ok_iff.mpr
      ⟨accessCode, usage, condition, found, hcode, htruthy, husage, hcondition, hfound, rfl⟩)
    exact ⟨code, Option.some.inj (hcode.symm.trans hstring)⟩
  · intro honly token htoken
    obtain ⟨accessCode, usage, condition, record, hcode, htruthy, husage, hcondition, hfound, rfl⟩ :=
      singIn_eq_ok_iff.mp htoken
    have hrecord := List.mem_of_find?_eq_some hfound
    have hmatches := List.find?_some hfound
    simp only [Bool.and_eq_true, decide_eq_true_eq] at hmatches
    rcases honly accessCode usage condition hcode htruthy husage hcondition with ⟨code, rfl⟩ | hnone
    · rw [hstrings code] at hcondition
      cases hcondition
      exact ⟨code, usage, hcode, husage, record, hrecord, of_decide_eq_true hmatches.1, hmatches.2, rfl⟩
    · rw [hnone record hrecord hmatches.2] at hmatches
      cases hmatches.1

/-! Two requests without the code. -/

/-- Filter values on a string path: literals are cast to text, `$ne: null` holds of every string. -/
def queryFilter : StringFilter
  | .str s => some fun stored => stored = s
  | .num n => if n.den = 1 then some fun stored => stored = toString n.num else none
  | .obj [("$ne", .null)] => some fun _ => true
  | _ => none

def betaRecord : BetaAccess where
  accessCode := "480213"
  usage := .marketplace
  baseUrl := "beta.ingl.io"
  localUrl := "http://localhost:4001"

def signInBody (accessCode : Json) : Json :=
  .obj [("usage", .str "Marketplace"), ("accessCode", accessCode)]

theorem field_signInBody (accessCode : Json) :
    (signInBody accessCode).field "accessCode" = some accessCode := by
  simp [signInBody, Json.field, List.lookup_cons]

theorem queryFilter_signInSound_iff :
    SignInSound queryFilter [betaRecord] (signInBody (.str "480213")) ↔
      OnlyStringsMatch queryFilter [betaRecord] (signInBody (.str "480213")) :=
  signInSound_iff (fun _ => rfl) _

/-- If signing in were sound, only a string would get the token of the record. -/
theorem eq_str_of_signInSound {accessCode : Json}
    (hsound : SignInSound queryFilter [betaRecord] (signInBody accessCode))
    (htoken : AuthController.singIn queryFilter [betaRecord] (signInBody accessCode) =
      .ok (AuthService.signIn betaRecord)) : ∃ code, accessCode = .str code := by
  obtain ⟨code, -, hcode, -⟩ := hsound _ htoken
  rw [field_signInBody] at hcode
  exact ⟨code, Option.some.inj hcode⟩

/-- The number with the digits of a code, and an operator that every code meets. -/
theorem queryFilter_not_signInSound :
    ¬SignInSound queryFilter [betaRecord] (signInBody (.num 480213)) ∧
      ¬SignInSound queryFilter [betaRecord] (signInBody (.obj [("$ne", .null)])) := by
  constructor
  · intro hsound
    exact nomatch eq_str_of_signInSound hsound (by rfl)
  · intro hsound
    exact nomatch eq_str_of_signInSound hsound (by rfl)

end InglMonitor
