import Mcpkit.DPoPModel
import Mcpkit.Transitions

/-!
The key of a DPoP proof. The middleware has the access token looked at by one validator and the
proof by another.
-/
namespace Mcpkit.DPoPBinding
open GoMaps Transitions DPoPModel List Option
variable {F : Type}

/-! ### Runs of the middleware -/

/-- A request, the readings of the clock and the entry that `evictOldest` takes if it has the choice. -/
structure Action where
  request : HTTPRequest
  now : Int
  again : Int
  victim : String

/-- The proof validator and the last reading of the clock; `passed` is history: the requests
    that came to the next handler. -/
structure System where
  dpop : DPoPValidator
  now : Int
  passed : List HTTPRequest

def new (cfg : DPoPConfig) (now : Int) : System := ⟨newDPoPValidator cfg,now,[]⟩

variable (lib : Library F)

def step (validator : String → Option String) (s : System) (a : Action) : Option System :=
  if s.now ≤ a.now ∧ a.now ≤ a.again then
    (dpopMiddleware lib true validator s.dpop a.request a.now a.again a.victim).map (fun (reply,dpop) =>
      { dpop := dpop, now := a.again, passed := match reply with
        | .passed _ => s.passed ++ [a.request]
        | _ => s.passed })
  else none

def signer (r : HTTPRequest) : Option PublicKey :=
  match verifyProof lib r.dpop with
  | .ok (key,_) => some key
  | .error _ => none

/-- Requests that were passed with the same access token have proofs of the same key. -/
def KeyBound (s : System) : Prop :=
  ∀ r ∈ s.passed, ∀ r' ∈ s.passed, bearerToken lib r.authorization = bearerToken lib r'.authorization →
    signer lib r = signer lib r'

/-! ### Two keys -/

/-- The proof of the request is signed with the key and made for the request and the token. -/
structure Made (config : DPoPConfig) (r : HTTPRequest) (token : String) (key : PublicKey) (jti : String)
    (iat : Int) : Prop where
  bearer : bearerToken lib r.authorization = some token
  present : r.dpop ≠ ""
  signed : ∃ payload, verifyProof lib r.dpop = .ok (key,payload) ∧
    readClaims lib (r.call token) payload = .ok (jti,iat) ∧ checkBinding lib config (r.call token) payload = .ok ()

/-- Two holders of the token, each with a key of their own, can make a proof that is issued at the instant. -/
def TwoHolders (config : DPoPConfig) (token : String) (iat : Int) : Prop :=
  ∃ r r' key key' jti jti', key ≠ key' ∧ jti ≠ jti' ∧ Made lib config r token key jti iat ∧ Made lib config r' token key' jti' iat

variable {lib} {config : DPoPConfig}

variable {validator : String → Option String} {r : HTTPRequest} {token jti : String}

theorem Made.signer {key : PublicKey} {iat : Int} (made : Made lib config r token key jti iat) :
    DPoPBinding.signer lib r = some key := by
  obtain ⟨payload,verified,-,-⟩ := made.signed
  simp only [DPoPBinding.signer,verified]

variable {now : Int}

theorem Made.checkProof {key : PublicKey} {iat : Int} (made : Made lib config r token key jti iat)
    (timed : checkTime config iat now = .ok ()) : DPoPModel.checkProof lib config (r.call token) now = .ok jti := by
  obtain ⟨payload,verified,read,bound⟩ := made.signed
  have verified' : verifyProof lib (r.call token).proof = .ok (key,payload) := verified
  simp only [DPoPModel.checkProof,verified',read,timed,bound,bind,Except.bind,pure,Except.pure]

theorem check_fresh {c : JTICache} (plain : (c.checkCtr+1)%100 ≠ 0) (absent : jti ∉ c.entries)
    (room : c.entries.keys.card < c.maxSize) (victim : String) :
    c.check jti now victim = some (true,{ c with entries := c.entries.insert jti now, checkCtr := c.checkCtr+1 }) := by
  have tidied : c.tidied now = c.entries := if_neg plain
  simp only [JTICache.check,JTICache.left,JTICache.room,tidied,absent,if_false,room,if_true,map_some]

variable {subject : String}

theorem step_passes {s : System} {key : PublicKey} {iat : Int} (ordered : s.now ≤ now)
    (known : validator token = some subject) (made : Made lib s.dpop.config r token key jti iat)
    (timed : checkTime s.dpop.config iat now = .ok ()) (plain : (s.dpop.jtiCache.checkCtr+1)%100 ≠ 0)
    (absent : jti ∉ s.dpop.jtiCache.entries) (room : s.dpop.jtiCache.entries.keys.card < s.dpop.jtiCache.maxSize) :
    step lib validator s ⟨r,now,now,""⟩ = some
      { dpop := { s.dpop with jtiCache := { s.dpop.jtiCache with
          entries := s.dpop.jtiCache.entries.insert jti now, checkCtr := s.dpop.jtiCache.checkCtr+1 } }
        now := now, passed := s.passed ++ [r] } := by
  simp only [step,dpopMiddleware,made.bearer,known,made.present,if_false,DPoPValidator.validateProof,made.checkProof timed,
    check_fresh plain absent room,map_some,if_true,ordered,Int.le_refl,and_self]

theorem two_keys_pass {cfg : DPoPConfig} {start iat : Int} (known : validator token = some subject)
    (holders : TwoHolders lib (newDPoPValidator cfg).config token iat) (ordered : start ≤ now)
    (timed : checkTime (newDPoPValidator cfg).config iat now = .ok ()) :
    ∃ s, Reachable (step lib validator) free (new cfg start) s ∧ ¬ KeyBound lib s := by
  obtain ⟨r,r',key,key',jti,jti',apart,fresh,made,made'⟩ := holders
  have empty {name : String} : name ∉ (∅ : GoMap Int) := Finmap.notMem_empty
  have first := step_passes (s := new cfg start) ordered known made timed nofun empty (Nat.zero_lt_succ 9999)
  let between : System :=
    { dpop := { newDPoPValidator cfg with jtiCache := { (newDPoPValidator cfg).jtiCache with
        entries := (∅ : GoMap Int).insert jti now, checkCtr := 1 } }
      now := now, passed := [r] }
  have absent : jti' ∉ (∅ : GoMap Int).insert jti now := by
    rw [Finmap.mem_insert]
    exact not_or.mpr ⟨fresh.symm,empty⟩
  have small : ((∅ : GoMap Int).insert jti now).keys.card < 10000 := by
    have one : ((∅ : GoMap Int).insert jti now).keys = {jti} := by
      ext name
      simp [Finmap.mem_keys,Finmap.mem_insert,empty]
    rw [one,Finset.card_singleton]
    omega
  have second := step_passes (s := between) (Int.le_refl now) known made' timed nofun absent small
  refine ⟨_,.next _ (.next _ .start trivial first) trivial second,fun bound => ?_⟩
  have same := bound r (mem_append_left _ (mem_singleton_self r)) r'
    (mem_append_right _ (mem_singleton_self r')) (made.bearer.trans made'.bearer.symm)
  rw [made.signer,made'.signer] at same
  exact apart (some.inj same)

/-! ### When no request is passed -/

theorem passed_cases {v v' : DPoPValidator} {again : Int} {victim : String}
    (passed : dpopMiddleware lib true validator v r now again victim = some (.passed subject,v')) :
    (∃ token, validator token = some subject) ∧ ∃ seconds, checkTime v.config (lib.unix seconds) now = .ok () := by
  unfold dpopMiddleware at passed
  split at passed
  · cases passed
  · rename_i token bearer
    split at passed
    · cases passed
    · rename_i subject' known
      split at passed
      · cases passed
      · obtain ⟨⟨result,v''⟩,validated,same⟩ := map_eq_some_iff.mp passed
        cases result with
        | error err => cases same
        | ok done =>
          cases same
          refine ⟨⟨token,known⟩,?_⟩
          unfold DPoPValidator.validateProof at validated
          split at validated
          · cases validated
          · rename_i jti checked
            obtain ⟨_,_,seconds,_,_,_,_,timed,_⟩ := checkProof_cases checked
            exact ⟨seconds,timed⟩

theorem dpopMiddleware_config {v v' : DPoPValidator} {again : Int} {victim : String} {reply : Reply}
    (replied : dpopMiddleware lib true validator v r now again victim = some (reply,v')) : v'.config = v.config := by
  unfold dpopMiddleware at replied
  split at replied
  · cases replied
    rfl
  · split at replied
    · cases replied
      rfl
    · split at replied
      · cases replied
        rfl
      · obtain ⟨⟨result,v''⟩,validated,same⟩ := map_eq_some_iff.mp replied
        cases same
        unfold DPoPValidator.validateProof at validated
        split at validated
        · cases validated
          rfl
        · obtain ⟨_,_,same⟩ := map_eq_some_iff.mp validated
          cases same
          rfl

theorem nothing_passed {cfg : DPoPConfig} {start : Int} (closed : (∀ token, validator token = none) ∨
      ∀ seconds now, start ≤ now → checkTime (newDPoPValidator cfg).config (lib.unix seconds) now ≠ .ok ())
    {s : System} (reached : Reachable (step lib validator) free (new cfg start) s) : s.passed = [] := by
  have kept : s.passed = [] ∧ start ≤ s.now ∧ s.dpop.config = (newDPoPValidator cfg).config := by
    refine reached.invariant (I := fun s => s.passed = [] ∧ start ≤ s.now ∧ s.dpop.config = (newDPoPValidator cfg).config)
      ⟨rfl,Int.le_refl start,rfl⟩ ?_
    rintro s a s' ⟨empty,begun,config⟩ - stepped
    unfold step at stepped
    split at stepped
    · rename_i ordered
      obtain ⟨⟨reply,v⟩,replied,rfl⟩ := map_eq_some_iff.mp stepped
      refine ⟨?_,Int.le_trans begun (Int.le_trans ordered.1 ordered.2),(dpopMiddleware_config replied).trans config⟩
      cases reply with
      | passed subject =>
        obtain ⟨⟨token,known⟩,seconds,timed⟩ := passed_cases replied
        rw [config] at timed
        rcases closed with none | never
        · cases (none token).symm.trans known
        · exact absurd timed (never seconds a.now (Int.le_trans begun ordered.1))
      | _ => exact empty
    · cases stepped
  exact kept.1

/-- The access token is bound to one key in every run just where no request is passed at all: the
    token validator accepts no token, or no time is right for a proof. -/
theorem key_bound_iff (lib : Library F) (validator : String → Option String) (cfg : DPoPConfig) (start : Int)
    (holders : ∀ token seconds, (∃ subject, validator token = some subject) →
      TwoHolders lib (newDPoPValidator cfg).config token (lib.unix seconds)) :
    (∀ s, Reachable (step lib validator) free (new cfg start) s → KeyBound lib s) ↔
    (∀ token, validator token = none) ∨
      ∀ seconds now, start ≤ now → checkTime (newDPoPValidator cfg).config (lib.unix seconds) now ≠ .ok () := by
  constructor
  · intro bound
    by_contra open_
    rw [not_or] at open_
    obtain ⟨some_,sometime⟩ := open_
    obtain ⟨token,accepted⟩ := not_forall.mp some_
    obtain ⟨subject,known⟩ := ne_none_iff_exists'.mp accepted
    push Not at sometime
    obtain ⟨seconds,now,ordered,timed⟩ := sometime
    obtain ⟨s,reached,unbound⟩ := two_keys_pass known (holders token seconds ⟨subject,known⟩) ordered timed
    exact unbound (bound s reached)
  · intro closed s reached r member
    rw [nothing_passed closed reached] at member
    cases member

/-- Two headers with a key each; all proofs are issued at the same instant. -/
def sampleLibrary : Library Unit where
  base64 text := .ok (text.toList.map fun c => c.toNat.toUInt8)
  unmarshal
    | [104] => .ok [("typ",.string "dpop+jwt"),("alg",.string "ES256"),("jwk",.object
        [("kty",.string "EC"),("crv",.string "P-256"),("x",.string "x"),("y",.string "y")])]
    | [107] => .ok [("typ",.string "dpop+jwt"),("alg",.string "ES256"),("jwk",.object
        [("kty",.string "EC"),("crv",.string "P-256"),("x",.string "a"),("y",.string "b")])]
    | [112] => .ok [("jti",.string "p"),("htm",.string "GET"),("htu",.string "https://h/"),("iat",.number ()),
        ("ath",.string "t")]
    | _ => .ok [("jti",.string "q"),("htm",.string "GET"),("htu",.string "https://h/"),("iat",.number ()),
        ("ath",.string "t")]
  notAnObject := ""
  unix _ := 0
  equalFold a b := a == b
  parseURL text := .ok ("https",text,"")
  quote text := text
  computeATH text := text
  verify _ _ := true

def sampleValidator (token : String) : Option String := if token = "t" then some "alice" else none

def sampleConfig : DPoPConfig := ⟨60000000000,120000000000,false⟩

def ownRequest : HTTPRequest := ⟨"Bearer t","h.p.s",true,"h","/","GET"⟩

def thiefRequest : HTTPRequest := ⟨"Bearer t","k.q.s",true,"h","/","GET"⟩

def sampleActions : List Action := [⟨ownRequest,0,0,""⟩,⟨thiefRequest,0,0,""⟩]

def samplePassed : System :=
  (exec (step sampleLibrary sampleValidator) free (new sampleConfig 0) sampleActions).getD (new sampleConfig 0)

theorem sampleHolders (token : String) (seconds : Unit) (known : ∃ subject, sampleValidator token = some subject) :
    TwoHolders sampleLibrary (newDPoPValidator sampleConfig).config token (sampleLibrary.unix seconds) := by
  have same : token = "t" := by
    obtain ⟨subject,accepted⟩ := known
    by_contra other
    rw [sampleValidator,if_neg other] at accepted
    cases accepted
  subst same
  exact ⟨ownRequest,thiefRequest,.ec 120 121,.ec 97 98,"p","q",by decide,by decide,
    ⟨by decide,by decide,_,rfl,rfl,rfl⟩,⟨by decide,by decide,_,rfl,rfl,rfl⟩⟩

theorem key_bound_sample :
    ¬ ∀ s, Reachable (step sampleLibrary sampleValidator) free (new sampleConfig 0) s → KeyBound sampleLibrary s := by
  rw [key_bound_iff sampleLibrary sampleValidator sampleConfig 0 sampleHolders]
  rintro (none | never)
  · cases none "t"
  · exact never () 0 (Int.le_refl 0) rfl

/-- The holder of the token and a thief with a key of their own are both passed. -/
theorem stolen_token_passes : Reachable (step sampleLibrary sampleValidator) free (new sampleConfig 0) samplePassed ∧
    samplePassed.passed = [ownRequest,thiefRequest] ∧
    bearerToken sampleLibrary ownRequest.authorization = bearerToken sampleLibrary thiefRequest.authorization ∧
    signer sampleLibrary ownRequest = some (.ec 120 121) ∧ signer sampleLibrary thiefRequest = some (.ec 97 98) ∧
    ¬ KeyBound sampleLibrary samplePassed := by
  have passed : samplePassed.passed = [ownRequest,thiefRequest] := by decide
  have tokens : bearerToken sampleLibrary ownRequest.authorization = bearerToken sampleLibrary thiefRequest.authorization :=
    rfl
  have own : signer sampleLibrary ownRequest = some (.ec 120 121) := by decide
  have thief : signer sampleLibrary thiefRequest = some (.ec 97 98) := by decide
  refine ⟨exec_getD_reachable sampleActions (by decide),passed,tokens,own,thief,fun bound => ?_⟩
  have same := bound ownRequest (by rw [passed]; exact mem_cons_self) thiefRequest
    (by rw [passed]; exact mem_cons_of_mem _ (mem_singleton_self _)) tokens
  rw [own,thief] at same
  cases same

end Mcpkit.DPoPBinding
