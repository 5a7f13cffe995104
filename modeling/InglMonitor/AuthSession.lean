import InglMonitor.AuthSignIn
import InglMonitor.TransitionRuns

/-! Tokens from the sign-in to their verification. The backend keeps no session: what it knows of a client
is in the token that the client sends, together with the origin it sends it from. The library that signs
tokens is a parameter, and a token stands for whatever it signs. -/

open Transition

namespace InglMonitor

/-- `expiresIn: '7d'`, in seconds. -/
def expiresIn : Nat := 7 * 24 * 3600

/-- The library for tokens, with the time it reads. -/
structure Jwt (Token : Type) where
  sign : TokenClaims → (issuedAt : Nat) → Token
  /-- The payload of a token with a good signature that has not expired. -/
  verify : Token → (now : Nat) → Option TokenClaims

/-- What is signed can be verified until it expires. -/
def Jwt.RoundTrips {Token : Type} (jwt : Jwt Token) : Prop :=
  ∀ claims issuedAt now,
    jwt.verify (jwt.sign claims issuedAt) now = if now < issuedAt + expiresIn then some claims else none

structure AuthBackend (Token : Type) where
  jwt : Jwt Token
  stringFilter : StringFilter
  /-- `NODE_ENV` is `production`. -/
  production : Bool
  /-- `new URL(origin).hostname`; `none` where it throws. -/
  hostname : String → Option String

inductive VerifyResponse where
  | user (claims : TokenClaims)
  | unauthorized
  | forbidden
  | internalServerError
  deriving DecidableEq

def JwtStrategy.validate (payload : TokenClaims) : TokenClaims where
  usage := payload.usage
  baseUrl := payload.baseUrl
  localUrl := payload.localUrl

section Model

variable {Token : Type} (backend : AuthBackend Token)

/-- The comparison with the origin of the request; `none` where it throws. -/
def JwtAuthGuard.sameOrigin (user : TokenClaims) (origin : Option String) : Option Bool :=
  if backend.production then do
    let hostname ← origin.bind backend.hostname
    return user.baseUrl = hostname
  else
    return some user.localUrl = origin

/-- The response to a comparison. -/
def JwtAuthGuard.canActivate (user : TokenClaims) : Option Bool → VerifyResponse
  | none => .internalServerError
  | some false => .forbidden
  | some true => .user user

/-- `GET auth/verify`, with the bearer token and the origin of the headers. -/
def AuthController.getUser (now : Nat) (token : Option Token) (origin : Option String) : VerifyResponse :=
  match token.bind (backend.jwt.verify · now) with
  | none => .unauthorized
  | some payload =>
      let user := JwtStrategy.validate payload
      JwtAuthGuard.canActivate user (JwtAuthGuard.sameOrigin backend user origin)

/-- The clock, the records, and the tokens that clients have got. -/
structure AuthWorld (Token : Type) where
  now : Nat
  records : List BetaAccess
  issued : List Token

/-- What happens; the backend itself never writes records. -/
inductive AuthEvent where
  | signIn (body : Json)
  | wait (seconds : Nat)
  | setRecords (records : List BetaAccess)

def authStep (world : AuthWorld Token) : AuthEvent → Option (AuthWorld Token)
  | .signIn body =>
      match AuthController.singIn backend.stringFilter world.records body with
      | .ok claims => some { world with issued := world.issued ++ [backend.jwt.sign claims world.now] }
      | .error _ => some world
  | .wait seconds => some { world with now := world.now + seconds }
  | .setRecords records => some { world with records }

/-- A record that a sign-in may find: it has the submitted usage, and its access code meets the condition that
the database makes of the submitted one, which need not be a string. -/
def FoundBy (body : Json) (record : BetaAccess) : Prop :=
  body.field "usage" = some (.str (ProgramUsage.text record.usage)) ∧
    ∃ accessCode condition, body.field "accessCode" = some accessCode ∧
      backend.stringFilter accessCode = some condition ∧ condition record.accessCode = true

/-- The token signs the claims that a sign-in has returned at that time of the run, those of a record that it
found. -/
def IssuedAt (start : AuthWorld Token) (events : List AuthEvent) (token : Token) (claims : TokenClaims)
    (issuedAt : Nat) : Prop :=
  ∃ pre body post world, events = pre ++ .signIn body :: post ∧
    run (authStep backend) start pre = some world ∧ world.now = issuedAt ∧
    token = backend.jwt.sign claims issuedAt ∧
    AuthController.singIn backend.stringFilter world.records body = .ok claims ∧
    ∃ record ∈ world.records, FoundBy backend body record ∧ claims = AuthService.signIn record

/-- The request comes from where the claims say. -/
def ComesFrom (claims : TokenClaims) (origin : Option String) : Prop :=
  if backend.production then origin.bind backend.hostname = some claims.baseUrl
  else origin = some claims.localUrl

end Model

variable {Token : Type} {backend : AuthBackend Token}

theorem sameOrigin_eq_some_true_iff {claims : TokenClaims} {origin : Option String} :
    JwtAuthGuard.sameOrigin backend claims origin = some true ↔ ComesFrom backend claims origin := by
  rw [JwtAuthGuard.sameOrigin, ComesFrom]
  cases backend.production with
  | true =>
      cases origin.bind backend.hostname with
      | none => simp
      | some hostname => simp [eq_comm]
  | false => simp [eq_comm]

theorem canActivate_eq_user_iff {user claims : TokenClaims} {same : Option Bool} :
    JwtAuthGuard.canActivate user same = .user claims ↔ user = claims ∧ same = some true := by
  rcases same with _ | _ | _ <;> simp [JwtAuthGuard.canActivate]

theorem getUser_eq_user_iff {now : Nat} {token : Token} {origin : Option String} {claims : TokenClaims} :
    AuthController.getUser backend now (some token) origin = .user claims ↔
      backend.jwt.verify token now = some claims ∧ ComesFrom backend claims origin := by
  rw [AuthController.getUser, Option.bind_some]
  cases backend.jwt.verify token now with
  | none => exact iff_of_false VerifyResponse.noConfusion fun h => nomatch h.1
  | some payload =>
      show JwtAuthGuard.canActivate payload (JwtAuthGuard.sameOrigin backend payload origin) = _ ↔ _
      rw [canActivate_eq_user_iff, sameOrigin_eq_some_true_iff, Option.some.injEq]
      constructor
      · rintro ⟨rfl, horigin⟩
        exact ⟨rfl, horigin⟩
      · rintro ⟨rfl, horigin⟩
        exact ⟨rfl, horigin⟩

/-- A sign-in that issues a token has found a record. -/
theorem record_of_singIn {records : List BetaAccess} {body : Json} {claims : TokenClaims}
    (h : AuthController.singIn backend.stringFilter records body = .ok claims) :
    ∃ record ∈ records, FoundBy backend body record ∧ claims = AuthService.signIn record := by
  obtain ⟨accessCode, usage, condition, record, hcode, -, husage, hcondition, hfound, rfl⟩ :=
    singIn_eq_ok_iff.mp h
  have hmatches := List.find?_some hfound
  simp only [Bool.and_eq_true, decide_eq_true_eq] at hmatches
  obtain ⟨hmeets, rfl⟩ := hmatches
  exact ⟨record, List.mem_of_find?_eq_some hfound,
    ⟨husage, accessCode, condition, hcode, hcondition, hmeets⟩, rfl⟩

/-! ### Runs -/

/-- A step issues at most a token, in a sign-in. -/
theorem issued_authStep {world world' : AuthWorld Token} {event : AuthEvent} {token : Token}
    (hstep : authStep backend world event = some world') (hmem : token ∈ world'.issued) :
    token ∈ world.issued ∨ ∃ body claims, event = .signIn body ∧
      AuthController.singIn backend.stringFilter world.records body = .ok claims ∧
      token = backend.jwt.sign claims world.now := by
  cases event with
  | signIn body =>
      rw [authStep] at hstep
      split at hstep
      · next claims hclaims =>
          cases hstep
          rcases List.mem_append.mp hmem with hmem | hmem
          · exact .inl hmem
          · exact .inr ⟨body, claims, rfl, hclaims, List.mem_singleton.mp hmem⟩
      · cases hstep
        exact .inl hmem
  | wait seconds =>
      cases hstep
      exact .inl hmem
  | setRecords records =>
      cases hstep
      exact .inl hmem

/-- An event in front of a run. -/
theorem IssuedAt.cons {start world : AuthWorld Token} {event : AuthEvent} {events : List AuthEvent}
    {token : Token} {claims : TokenClaims} {issuedAt : Nat}
    (hstep : authStep backend start event = some world)
    (h : IssuedAt backend world events token claims issuedAt) :
    IssuedAt backend start (event :: events) token claims issuedAt := by
  obtain ⟨pre, body, post, world', rfl, hrun, hrest⟩ := h
  exact ⟨event :: pre, body, post, world', rfl, (run_cons_eq_some _).mpr ⟨world, hstep, hrun⟩, hrest⟩

/-- What clients have got in a run was issued in one of its sign-ins. -/
theorem mem_issued {start world : AuthWorld Token} {events : List AuthEvent} {token : Token}
    (hrun : run (authStep backend) start events = some world) (hmem : token ∈ world.issued) :
    token ∈ start.issued ∨ ∃ claims issuedAt, IssuedAt backend start events token claims issuedAt := by
  induction events generalizing start with
  | nil =>
      cases hrun
      exact .inl hmem
  | cons event events ih =>
      obtain ⟨world', hstep, hrun⟩ := (run_cons_eq_some _).mp hrun
      rcases ih hrun with hissued | ⟨claims, issuedAt, hissued⟩
      · rcases issued_authStep hstep hissued with hstart | ⟨body, claims, rfl, hclaims, htoken⟩
        · exact .inl hstart
        · exact .inr ⟨claims, start.now, [], body, events, start, rfl, rfl, rfl, htoken,
            hclaims, record_of_singIn hclaims⟩
      · exact .inr ⟨claims, issuedAt, hissued.cons hstep⟩

/-- **Sessions.** In every run, of a token that nobody has made up, a request learns the claims exactly
when a sign-in of the last seven days has returned them and the token signs them, and the request comes from
where they say. They are those of a record of that time whose access code met the submitted value, as the
database compares the two; what has become of the record since does not matter. -/
theorem verified_iff (hjwt : backend.jwt.RoundTrips) {start world : AuthWorld Token}
    {events : List AuthEvent} (hstart : start.issued = [])
    (hrun : run (authStep backend) start events = some world) {token : Token}
    (hgenuine : ∀ claims, backend.jwt.verify token world.now = some claims → token ∈ world.issued)
    (origin : Option String) (claims : TokenClaims) :
    AuthController.getUser backend world.now (some token) origin = .user claims ↔
      ComesFrom backend claims origin ∧ ∃ issuedAt, world.now < issuedAt + expiresIn ∧
        IssuedAt backend start events token claims issuedAt := by
  rw [getUser_eq_user_iff, and_comm]
  refine and_congr_right fun _ => ⟨fun hverify => ?_, ?_⟩
  · rcases mem_issued hrun (hgenuine claims hverify) with hmem | ⟨claims', issuedAt, hissued⟩
    · rw [hstart] at hmem
      cases hmem
    · obtain ⟨-, -, -, -, -, -, -, rfl, -⟩ := id hissued
      rw [hjwt] at hverify
      obtain ⟨hfresh, hsame⟩ := Option.ite_none_right_eq_some.mp hverify
      cases hsame
      exact ⟨issuedAt, hfresh, hissued⟩
  · rintro ⟨issuedAt, hfresh, -, -, -, -, -, -, -, rfl, -⟩
    rw [hjwt, if_pos hfresh]

/-- A token is its payload here. -/
def betaBackend : AuthBackend (TokenClaims × Nat) where
  jwt :=
    { sign := Prod.mk
      verify := fun token now => if now < token.2 + expiresIn then some token.1 else none }
  stringFilter := queryFilter
  production := false
  hostname := some

def betaStart : AuthWorld (TokenClaims × Nat) := ⟨0, [betaRecord], []⟩

/-- A sign-in, and a day after the record has been removed. -/
def betaEvents : List AuthEvent := [.signIn (signInBody (.str "480213")), .setRecords [], .wait 86400]

def betaWorld : AuthWorld (TokenClaims × Nat) := ⟨86400, [], [(AuthService.signIn betaRecord, 0)]⟩

theorem issuedAt_beta : IssuedAt betaBackend betaStart betaEvents (AuthService.signIn betaRecord, 0)
    (AuthService.signIn betaRecord) 0 :=
  ⟨[], _, _, betaStart, rfl, rfl, rfl, rfl, rfl, betaRecord, List.mem_singleton_self _,
    ⟨rfl, _, _, field_signInBody _, rfl, by decide⟩, rfl⟩

/-- The token outlives the record. -/
theorem verified_iff_removed : AuthController.getUser betaBackend betaWorld.now
    (some (AuthService.signIn betaRecord, 0)) (some "http://localhost:4001") =
      .user (AuthService.signIn betaRecord) := by
  have hrun : run (authStep betaBackend) betaStart betaEvents = some betaWorld := rfl
  have hfresh : betaWorld.now < 0 + expiresIn := by decide
  exact (verified_iff (fun _ _ _ => rfl) rfl hrun (fun _ _ => List.mem_singleton_self _) _ _).mpr
    ⟨rfl, 0, hfresh, issuedAt_beta⟩

end InglMonitor
