import Mcpkit.GoMaps

/-!
DPoP proofs. The validator parses a proof, checks it against the key in its own header and against
the request, and asks a cache whether the proof's `jti` was seen.
-/
namespace Mcpkit.DPoPModel
open GoMaps

/-! ### Time -/

def addDuration (a b : Int) : Int := (a+b).bmod (2^64)

/-- `t.Sub(u)` in nanoseconds, which saturates. -/
def sub (t u : Int) : Int := max (-2^63) (min (2^63-1) (t-u))

theorem sub_mono {t t' : Int} (later : t ≤ t') (u : Int) : sub t u ≤ sub t' u := by
  unfold sub
  omega

/-! ### Proofs -/

inductive Value (F : Type) where
  | null
  | string (text : String)
  | number (value : F)
  | object (fields : List (String × Value F))
  | other

abbrev Object (F : Type) := List (String × Value F)

def stringField {F : Type} (object : Object F) (key : String) : String :=
  match object.lookup key with
  | some (.string text) => text
  | _ => ""

inductive PublicKey where
  | rsa (n : Nat) (e : Int)
  | ec (x y : Nat)
  deriving DecidableEq

def PublicKey.alg : PublicKey → String
  | .rsa _ _ => "RS256"
  | .ec _ _ => "ES256"

inductive DPoPError where
  | invalidProof (detail : String)
  | replay
  | expired
  | methodMismatch (detail : String)
  | uriMismatch (detail : String)
  | athMismatch
  deriving DecidableEq

def DPoPError.message : DPoPError → String
  | .invalidProof detail => "invalid DPoP proof: " ++ detail
  | .replay => "DPoP proof replay detected"
  | .expired => "DPoP proof expired"
  | .methodMismatch detail => "DPoP method mismatch: " ++ detail
  | .uriMismatch detail => "DPoP URI mismatch: " ++ detail
  | .athMismatch => "DPoP access token hash mismatch"

structure Library (F : Type) where
  base64 : String → Except String (List UInt8)
  unmarshal : List UInt8 → Except String (Object F)
  notAnObject : String
  unix : F → Int
  equalFold : String → String → Bool
  parseURL : String → Except String (String × String × String)
  quote : String → String
  computeATH : String → String
  verify : String → PublicKey → Bool

structure DPoPConfig where
  maxClockSkew : Int
  maxProofAge : Int
  nonceRequired : Bool
  deriving DecidableEq

section
variable {F : Type} (lib : Library F)

def parseDPoPJWT (token : String) : Except String (Object F × Object F) :=
  match (token.toList.splitOn '.').map String.ofList with
  | [first,second,_] => do
    let headerBytes ← (lib.base64 first).mapError ("invalid header encoding: " ++ ·)
    let header ← (lib.unmarshal headerBytes).mapError ("invalid header JSON: " ++ ·)
    let payloadBytes ← (lib.base64 second).mapError ("invalid payload encoding: " ++ ·)
    let payload ← (lib.unmarshal payloadBytes).mapError ("invalid payload JSON: " ++ ·)
    pure (header,payload)
  | _ => .error "invalid JWT format"

def setBytes (bytes : List UInt8) : Nat := bytes.foldl (fun n b => n*256+b.toNat) 0

def exponent (bytes : List UInt8) : Int := bytes.foldl (fun e b => (e*256+b.toNat).bmod (2^64)) 0

def parseRSAPublicJWK (jwk : Object F) : Except String PublicKey :=
  if stringField jwk "n" = "" ∨ stringField jwk "e" = "" then .error "missing RSA key parameters"
  else do
    let nBytes ← (lib.base64 (stringField jwk "n")).mapError ("invalid n parameter: " ++ ·)
    let eBytes ← (lib.base64 (stringField jwk "e")).mapError ("invalid e parameter: " ++ ·)
    pure (.rsa (setBytes nBytes) (exponent eBytes))

def parseECPublicJWK (jwk : Object F) : Except String PublicKey :=
  if stringField jwk "crv" ≠ "P-256" then .error ("unsupported curve: " ++ stringField jwk "crv")
  else if stringField jwk "x" = "" ∨ stringField jwk "y" = "" then .error "missing EC key parameters"
  else do
    let xBytes ← (lib.base64 (stringField jwk "x")).mapError ("invalid x parameter: " ++ ·)
    let yBytes ← (lib.base64 (stringField jwk "y")).mapError ("invalid y parameter: " ++ ·)
    pure (.ec (setBytes xBytes) (setBytes yBytes))

def jwkFields : Value F → Except String (Object F)
  | .object fields => .ok fields
  | .null => .ok []
  | _ => .error ("invalid JWK: " ++ lib.notAnObject)

def parseJWKPublicKey (raw : Value F) : Except String PublicKey := do
  let jwk ← jwkFields lib raw
  if stringField jwk "kty" = "RSA" then parseRSAPublicJWK lib jwk
  else if stringField jwk "kty" = "EC" then parseECPublicJWK lib jwk
  else .error ("unsupported key type: " ++ stringField jwk "kty")

/-- `ValidateProof` up to the signature: the key, and the claims that it has signed. -/
def verifyProof (proof : String) : Except DPoPError (PublicKey × Object F) := do
  let (header,payload) ← (parseDPoPJWT lib proof).mapError .invalidProof
  let typ := stringField header "typ"
  let alg := stringField header "alg"
  if !lib.equalFold typ "dpop+jwt" then .error (.invalidProof ("invalid typ " ++ lib.quote typ))
  else if alg ≠ "RS256" ∧ alg ≠ "ES256" then .error (.invalidProof ("unsupported algorithm " ++ lib.quote alg))
  else match header.lookup "jwk" with
  | none => .error (.invalidProof "missing jwk in header")
  | some jwkRaw => do
    let pubKey ← (parseJWKPublicKey lib jwkRaw).mapError .invalidProof
    if alg ≠ pubKey.alg then
      .error (.invalidProof ("algorithm mismatch: header " ++ lib.quote alg ++ ", key " ++ lib.quote pubKey.alg))
    else if !lib.verify proof pubKey then .error (.invalidProof "signature verification failed")
    else pure (pubKey,payload)

structure Call where
  proof : String
  accessToken : String
  httpMethod : String
  httpURI : String
  deriving DecidableEq

def compareURIs (htu requestURI : String) : Except String Unit := do
  let (scheme,host,path) ← (lib.parseURL htu).mapError ("invalid htu: " ++ ·)
  let (scheme',host',path') ← (lib.parseURL requestURI).mapError ("invalid request URI: " ++ ·)
  if !lib.equalFold scheme scheme' || !lib.equalFold host host' || path != path' then
    .error ("URI mismatch: " ++ lib.quote htu ++ " vs " ++ lib.quote requestURI)
  else pure ()

def readClaims (call : Call) (payload : Object F) : Except DPoPError (String × Int) :=
  let jti := stringField payload "jti"
  let htm := stringField payload "htm"
  if jti = "" then .error (.invalidProof "missing jti")
  else if !lib.equalFold htm call.httpMethod then
    .error (.methodMismatch ("expected " ++ lib.quote call.httpMethod ++ ", got " ++ lib.quote htm))
  else do
    (compareURIs lib (stringField payload "htu") call.httpURI).mapError .uriMismatch
    match payload.lookup "iat" with
    | some (.number seconds) => pure (jti,lib.unix seconds)
    | _ => .error (.invalidProof "missing iat")

variable (config : DPoPConfig)

def DPoPConfig.expired (iat now : Int) : Prop :=
  addDuration config.maxProofAge config.maxClockSkew < sub now iat

instance (config : DPoPConfig) (iat now : Int) : Decidable (config.expired iat now) :=
  inferInstanceAs (Decidable (_ < _))

def checkTime (iat now : Int) : Except DPoPError Unit :=
  if config.expired iat now then .error .expired
  else if config.maxClockSkew < sub iat now then .error (.invalidProof "proof issued in the future")
  else .ok ()

def checkBinding (call : Call) (payload : Object F) : Except DPoPError Unit :=
  if call.accessToken ≠ "" ∧ stringField payload "ath" ≠ lib.computeATH call.accessToken then .error .athMismatch
  else if config.nonceRequired = true ∧ stringField payload "nonce" = "" then
    .error (.invalidProof "missing required nonce")
  else .ok ()

/-- `ValidateProof` up to the replay detection: the `jti`. -/
def checkProof (call : Call) (now : Int) : Except DPoPError String := do
  let (_,payload) ← verifyProof lib call.proof
  let (jti,iat) ← readClaims lib call payload
  checkTime config iat now
  checkBinding lib config call payload
  pure jti

/-! ### What a call that comes to the cache has passed -/

theorem bind_ok {ε α β : Type} {x : Except ε α} {f : α → Except ε β} {b : β} (bound : (x >>= f) = .ok b) :
    ∃ a, x = .ok a ∧ f a = .ok b := by
  cases x with
  | error err => cases bound
  | ok a => exact ⟨a,rfl,bound⟩

theorem checkTime_ok {config : DPoPConfig} {iat now : Int} :
    checkTime config iat now = .ok () ↔ ¬ config.expired iat now ∧ ¬ config.maxClockSkew < sub iat now := by
  unfold checkTime
  by_cases old : config.expired iat now
  · simp [old]
  · by_cases future : config.maxClockSkew < sub iat now
    · simp [old,future]
    · simp [old,future]

theorem readClaims_cases {lib : Library F} {call : Call} {payload : Object F} {jti : String} {iat : Int}
    (read : readClaims lib call payload = .ok (jti,iat)) :
    jti = stringField payload "jti" ∧ ∃ seconds, payload.lookup "iat" = some (.number seconds) ∧ iat = lib.unix seconds := by
  unfold readClaims at read
  dsimp only at read
  split at read
  · cases read
  · split at read
    · cases read
    · obtain ⟨-,-,read⟩ := bind_ok read
      split at read
      · rename_i seconds found
        cases read
        exact ⟨rfl,seconds,found,rfl⟩
      · cases read

theorem checkProof_cases {lib : Library F} {config : DPoPConfig} {call : Call} {now : Int} {jti : String}
    (checked : checkProof lib config call now = .ok jti) :
    ∃ key payload seconds, verifyProof lib call.proof = .ok (key,payload) ∧ jti = stringField payload "jti" ∧
      payload.lookup "iat" = some (.number seconds) ∧ readClaims lib call payload = .ok (jti,lib.unix seconds) ∧
      checkTime config (lib.unix seconds) now = .ok () ∧ checkBinding lib config call payload = .ok () := by
  obtain ⟨⟨key,payload⟩,verified,rest⟩ := bind_ok checked
  obtain ⟨⟨jti',iat⟩,read,rest⟩ := bind_ok rest
  obtain ⟨⟨⟩,timed,rest⟩ := bind_ok rest
  obtain ⟨⟨⟩,bound,rest⟩ := bind_ok rest
  cases rest
  obtain ⟨rfl,seconds,found,rfl⟩ := readClaims_cases read
  exact ⟨key,payload,seconds,verified,rfl,found,read,timed,bound⟩

end

/-! ### The cache -/

structure JTICache where
  entries : GoMap Int
  maxSize : Nat
  ttl : Int
  checkCtr : Nat

def newJTICache (maxSize : Nat) (ttl : Int) : JTICache := ⟨∅,maxSize,ttl,0⟩

variable (c : JTICache)

def JTICache.cleanup (entries : GoMap Int) (now : Int) : GoMap Int :=
  keep entries fun _ ts => decide (¬ c.ttl < sub now ts)

/-- No entry is older; among entries of the same age the order of the map decides. -/
def Oldest (entries : GoMap Int) (key : String) : Prop :=
  ∃ ts ∈ entries.lookup key, ∀ other ∈ entries.keys, ∀ ts' ∈ entries.lookup other, ts ≤ ts'

instance (entries : GoMap Int) (key : String) : Decidable (Oldest entries key) :=
  inferInstanceAs (Decidable (∃ ts ∈ entries.lookup key, ∀ other ∈ entries.keys, ∀ ts' ∈ entries.lookup other, ts ≤ ts'))

def JTICache.tidied (now : Int) : GoMap Int :=
  if (c.checkCtr+1)%100 = 0 then c.cleanup c.entries now else c.entries

/-- The entries when there is room for one more; `victim` is the one that `evictOldest` takes if it is called. -/
def JTICache.room (now : Int) (victim : String) : Option (GoMap Int) :=
  if (c.tidied now).keys.card < c.maxSize then some (c.tidied now)
  else if (c.cleanup (c.tidied now) now).keys.card < c.maxSize then some (c.cleanup (c.tidied now) now)
  else if Oldest (c.cleanup (c.tidied now) now) victim then some ((c.cleanup (c.tidied now) now).erase victim)
  else none

def JTICache.left (jti : String) (now : Int) (victim : String) : Option (GoMap Int) :=
  if jti ∈ c.tidied now then some (c.tidied now) else c.room now victim

def JTICache.check (jti : String) (now : Int) (victim : String) : Option (Bool × JTICache) :=
  (c.left jti now victim).map (fun entries =>
    if jti ∈ c.tidied now then (false,{ c with entries := entries, checkCtr := c.checkCtr+1 })
    else (true,{ c with entries := entries.insert jti now, checkCtr := c.checkCtr+1 }))

/-! ### The validator and the middleware -/

structure DPoPValidator where
  config : DPoPConfig
  jtiCache : JTICache

def newDPoPValidator (cfg : DPoPConfig) : DPoPValidator :=
  let config := { cfg with
    maxClockSkew := if cfg.maxClockSkew = 0 then 60000000000 else cfg.maxClockSkew
    maxProofAge := if cfg.maxProofAge = 0 then 120000000000 else cfg.maxProofAge }
  ⟨config,newJTICache 10000 (addDuration config.maxProofAge config.maxClockSkew)⟩

/-- `ValidateProof`, which reads the clock for the proof and again in the cache. -/
def DPoPValidator.validateProof {F : Type} (lib : Library F) (v : DPoPValidator) (call : Call) (now again : Int)
    (victim : String) : Option (Except DPoPError Unit × DPoPValidator) :=
  match checkProof lib v.config call now with
  | .error err => some (.error err,v)
  | .ok jti =>
    (v.jtiCache.check jti again victim).map (fun (fresh,cache) =>
      (if fresh then .ok () else .error .replay,{ v with jtiCache := cache }))

structure HTTPRequest where
  authorization : String
  dpop : String
  tls : Bool
  host : String
  path : String
  method : String
  deriving DecidableEq

/-- An answer of the middleware, or what the next handler gives for the subject. -/
inductive Reply where
  | unauthorized
  | required
  | invalid (text : String)
  | passed (subject : String)
  deriving DecidableEq

def bearerToken {F : Type} (lib : Library F) (authorization : String) : Option String :=
  match authorization.toList.span (fun c => c ≠ ' ') with
  | (scheme,_ :: token) => if lib.equalFold (String.ofList scheme) "Bearer" then some (String.ofList token) else none
  | (_,[]) => none

def HTTPRequest.call (r : HTTPRequest) (accessToken : String) : Call :=
  ⟨r.dpop,accessToken,r.method,(if r.tls then "https" else "http") ++ "://" ++ r.host ++ r.path⟩

def dpopMiddleware {F : Type} (lib : Library F) (requireDPoP : Bool) (validator : String → Option String) (v : DPoPValidator)
    (r : HTTPRequest) (now again : Int) (victim : String) : Option (Reply × DPoPValidator) :=
  match bearerToken lib r.authorization with
  | none => some (.unauthorized,v)
  | some accessToken =>
    match validator accessToken with
    | none => some (.unauthorized,v)
    | some subject =>
      if r.dpop = "" then some (if requireDPoP then .required else .passed subject,v)
      else (v.validateProof lib (r.call accessToken) now again victim).map (fun (result,v) =>
        (match result with
          | .ok _ => .passed subject
          | .error err => .invalid ("Invalid DPoP proof: " ++ err.message),v))

end Mcpkit.DPoPModel
