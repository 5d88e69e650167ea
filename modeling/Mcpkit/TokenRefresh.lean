import Mathlib.Data.List.Nodup
import Mcpkit.Transitions

/-!
`OAuthClient.Token` under concurrent calls, with a token endpoint that rotates its refresh tokens.
-/
namespace Mcpkit.TokenRefresh
open Transitions List

/-! ### The client -/

structure TokenResponse where
  accessToken : String
  expiresIn : Int
  refreshToken : String
  deriving DecidableEq

structure OAuthClient where
  cachedToken : Option TokenResponse
  tokenExpiry : Int
  refreshToken : String

def second : Int := 1000000000

def expiryMargin : Int := 10*second

def OAuthClient.setToken (c : OAuthClient) (now : Int) (t : TokenResponse) : OAuthClient where
  cachedToken := some t
  tokenExpiry := if 0 < t.expiresIn then now+(t.expiresIn*second-expiryMargin) else now+3600*second
  refreshToken := if t.refreshToken ≠ "" then t.refreshToken else c.refreshToken

inductive Outcome where
  | accessToken (text : String)
  | errTokenExpired
  deriving DecidableEq

/-- A call of `Token`; `answered` is before `SetToken`. -/
inductive Call where
  | idle
  | reading (token : Option TokenResponse) (expiry : Int) (refresh : String)
  | refreshing (refresh : String)
  | answered (resp : TokenResponse)
  | failed
  | returned (outcome : Outcome)

def Call.busy : Call → Bool
  | .refreshing _ | .answered _ | .failed => true
  | _ => false

def Call.active : Call → Bool
  | .idle | .returned _ => false
  | _ => true

/-- `issued` has the last refresh token first. The last three fields are history: tokens sent after their
    redemption, calls whose refresh succeeded, and which call met the refresh of which. -/
structure System where
  now : Int
  client : OAuthClient
  issued : List String
  redeemed : List String
  calls : Nat → Call
  repeated : List String
  succeeded : Nat → Bool
  met : Nat → Nat → Bool

/-- A client whose refresh token, if it has one, is the only one that was issued. -/
def init (client : OAuthClient) (now : Int) : System where
  now := now
  client := client
  issued := if client.refreshToken = "" then [] else [client.refreshToken]
  redeemed := []
  calls _ := .idle
  repeated := []
  succeeded _ := false
  met _ _ := false

variable (s : System)

def System.set (i : Nat) (call : Call) : System :=
  { s with calls := fun k => if k = i then call else s.calls k }

/-- The endpoint honours a refresh token that it issued and that has not been redeemed. -/
def System.honours (refresh : String) : Prop := refresh ∈ s.issued ∧ refresh ∉ s.redeemed

instance (s : System) (refresh : String) : Decidable (s.honours refresh) := inferInstanceAs (Decidable (_ ∧ _))

/-- Time passes, or a call takes a step; `resp` is what the endpoint gives out if it honours the request. -/
inductive Action where
  | tick (elapsed : Nat)
  | read (i : Nat)
  | decide (i : Nat)
  | unreachable (i : Nat)
  | redeem (i : Nat) (resp : TokenResponse)
  | install (i : Nat)
  | giveUp (i : Nat)

/-- `token != nil && time.Now().Before(expiry)`. -/
def usable (token : Option TokenResponse) (expiry now : Int) : Option String :=
  if now < expiry then token.map (·.accessToken) else none

def step : Action → Option System
  | .tick elapsed => some { s with now := s.now+elapsed }
  | .read i =>
    match s.calls i with
    | .idle =>
      some { s.set i (.reading s.client.cachedToken s.client.tokenExpiry s.client.refreshToken) with
        met := fun k j => s.met k j || (k = i && (s.calls j).busy) }
    | _ => none
  | .decide i =>
    match s.calls i with
    | .reading token expiry refresh =>
      match usable token expiry s.now with
      | some text => some (s.set i (.returned (.accessToken text)))
      | none =>
        if refresh = "" then some (s.set i (.returned .errTokenExpired))
        else some { s.set i (.refreshing refresh) with met := fun k j => s.met k j || (j = i && (s.calls k).active) }
    | _ => none
  | .unreachable i =>
    match s.calls i with
    | .refreshing _ => some (s.set i .failed)
    | _ => none
  | .redeem i resp =>
    match s.calls i with
    | .refreshing refresh =>
      if s.honours refresh then
        -- the endpoint rotates: each answer has a refresh token that it has not given out
        if resp.refreshToken ≠ "" ∧ resp.refreshToken ∉ s.issued then
          some { s.set i (.answered resp) with
            issued := resp.refreshToken :: s.issued
            redeemed := refresh :: s.redeemed
            succeeded := fun k => s.succeeded k || k = i }
        else none
      else
        some { s.set i .failed with
          repeated := if refresh ∈ s.redeemed then refresh :: s.repeated else s.repeated }
    | _ => none
  | .install i =>
    match s.calls i with
    | .answered resp =>
      some { s.set i (.returned (.accessToken resp.accessToken)) with client := s.client.setToken s.now resp }
    | _ => none
  | .giveUp i =>
    match s.calls i with
    | .failed => some (s.set i (.returned .errTokenExpired))
    | _ => none

/-! ### What is asked of the calls -/

/-- No redeemed token was sent again, the stored refresh token is the one issued last, and no call has failed
    beside a refresh that succeeded. -/
structure Orderly : Prop where
  once : s.repeated = []
  stored : (∀ i resp, s.calls i ≠ .answered resp) → s.issued ≠ [] → s.issued.head? = some s.client.refreshToken
  overlapped : ∀ i j, s.calls i = .returned .errTokenExpired → s.met i j = true → s.succeeded j = false

/-- A call starts a refresh only with the refresh token that is stored then, and while no other call is refreshing. -/
def Serial : Action → Prop
  | .decide i => ∀ token expiry refresh, s.calls i = .reading token expiry refresh →
    usable token expiry s.now = none → refresh ≠ "" → refresh = s.client.refreshToken ∧ ∀ j, (s.calls j).busy = false
  | _ => True

/-! ### The refresh tokens -/

def Call.held : Call → Option String
  | .reading _ _ refresh | .refreshing refresh => some refresh
  | _ => none

/-- There is no refresh token as long as none was issued; any other was. -/
def Known (refresh : String) : Prop := (refresh = "" → s.issued = []) ∧ (refresh ≠ "" → refresh ∈ s.issued)

/-- All refresh tokens but the last are redeemed. The last is stored, or is on its way and nobody else has it. -/
structure Rotating : Prop where
  chain : s.redeemed = s.issued.tail
  distinct : s.issued.Nodup
  named : "" ∉ s.issued
  known : Known s s.client.refreshToken
  held : ∀ i refresh, (s.calls i).held = some refresh → Known s refresh
  settled : (∀ i resp, s.calls i ≠ .answered resp) → s.client.refreshToken = s.issued.headD ""
  last : ∀ i resp, s.calls i = .answered resp → s.issued.head? = some resp.refreshToken
  fresh : ∀ i resp, s.calls i = .answered resp → s.client.refreshToken ≠ resp.refreshToken
  single : ∀ i j resp resp', s.calls i = .answered resp → s.calls j = .answered resp' → i = j
  unshared : ∀ i resp j refresh, s.calls i = .answered resp → (s.calls j).held = some refresh →
    refresh ≠ resp.refreshToken

open Call

theorem init_rotating (client : OAuthClient) (now : Int) : Rotating (init client now) := by
  unfold init
  constructor <;> grind [Known,held]

variable {s} {i : Nat} {call : Call}

section
variable (valid : Rotating s)
include valid

theorem Rotating.goes_on (met : Nat → Nat → Bool)
    (repeated : List String) (before : ∀ resp, s.calls i ≠ .answered resp) (after : ∀ resp, call ≠ .answered resp)
    (held : ∀ refresh, call.held = some refresh → (s.calls i).held = some refresh ∨ refresh = s.client.refreshToken) :
    Rotating { s.set i call with met := met, repeated := repeated } := by
  obtain ⟨chain,distinct,named,known,earlier,settled,last,fresh,single,unshared⟩ := valid
  constructor <;> simp only [System.set,Known] at * <;> grind

theorem Rotating.honours_iff (refresh : String) : s.honours refresh ↔ s.issued.head? = some refresh := by
  have chain := valid.chain
  have distinct := valid.distinct
  unfold System.honours
  cases issued : s.issued with
  | nil => simp
  | cons first rest =>
    rw [issued] at chain distinct
    rw [chain]
    constructor
    · rintro ⟨member,unredeemed⟩
      rcases List.mem_cons.mp member with rfl | older
      · rfl
      · exact absurd older unredeemed
    · intro is
      cases is
      exact ⟨mem_cons_self,(List.nodup_cons.mp distinct).1⟩

variable {resp : TokenResponse}

theorem Rotating.redeem {refresh : String}
    (sent : s.calls i = .refreshing refresh) (honours : s.honours refresh) (named : resp.refreshToken ≠ "")
    (unused : resp.refreshToken ∉ s.issued) (succeeded : Nat → Bool) : Rotating { s.set i (.answered resp) with
      issued := resp.refreshToken :: s.issued
      redeemed := refresh :: s.redeemed
      succeeded := succeeded } := by
  have first := (valid.honours_iff refresh).mp honours
  -- an answer on its way would be the last token, and this call would not have it
  have alone : ∀ j resp', s.calls j ≠ .answered resp' := by
    intro j resp' answered
    have latest := valid.last j resp' answered
    rw [first,Option.some.injEq] at latest
    exact valid.unshared j resp' i refresh answered (by rw [sent]; rfl) latest
  have spent : refresh :: s.redeemed = s.issued := by
    rw [valid.chain]
    exact cons_head?_tail first
  obtain ⟨chain,distinct,unnamed,known,held,-,-,-,-,-⟩ := valid
  refine ⟨spent,?_,?_,?_,?_,fun none => absurd (if_pos rfl) (none i resp),?_,?_,?_,?_⟩
  all_goals simp only [System.set,Known] at *
  all_goals grind [Call.held]

theorem Rotating.install (answered : s.calls i = .answered resp)
    (outcome : Outcome) : Rotating { s.set i (.returned outcome) with client := s.client.setToken s.now resp } := by
  have last := valid.last i resp answered
  have member : resp.refreshToken ∈ s.issued := mem_of_mem_head? last
  have single := fun j resp' => valid.single i j resp resp' answered
  obtain ⟨chain,distinct,unnamed,known,held,-,-,-,-,-⟩ := valid
  constructor <;> simp only [System.set,Known,OAuthClient.setToken] at * <;> grind [Call.held]

theorem step_rotating {s' : System} (a : Action) (moved : step s a = some s') : Rotating s' := by
  cases a with simp only [step] at moved
  | tick elapsed =>
    cases moved
    exact { valid with }
  | read i =>
    split at moved
    · rename_i idle
      cases moved
      exact valid.goes_on _ s.repeated (by simp [idle]) nofun (by simp [held])
    · cases moved
  | decide i =>
    split at moved
    · rename_i token expiry refresh reading
      split at moved
      · cases moved
        exact valid.goes_on s.met s.repeated (by simp [reading]) nofun nofun
      · split at moved
        · cases moved
          exact valid.goes_on s.met s.repeated (by simp [reading]) nofun nofun
        · cases moved
          exact valid.goes_on _ s.repeated (by simp [reading]) nofun (by simp [held,reading])
    · cases moved
  | unreachable i =>
    split at moved
    · rename_i refresh sent
      cases moved
      exact valid.goes_on s.met s.repeated (by simp [sent]) nofun nofun
    · cases moved
  | redeem i resp =>
    split at moved
    · rename_i refresh sent
      split at moved
      · rename_i honours
        split at moved
        · rename_i rotates
          cases moved
          exact valid.redeem sent honours rotates.1 rotates.2 _
        · cases moved
      · cases moved
        exact valid.goes_on s.met _ (by simp [sent]) nofun nofun
    · cases moved
  | install i =>
    split at moved
    · rename_i resp answered
      cases moved
      exact valid.install answered _
    · cases moved
  | giveUp i =>
    split at moved
    · rename_i failed
      cases moved
      exact valid.goes_on s.met s.repeated (by simp [failed]) nofun nofun
    · cases moved

end

def Call.begun : Call → Bool
  | .idle | .reading _ _ _ => false
  | _ => true

def Call.installing : Call → Bool
  | .answered _ => true
  | _ => false

def Call.ended : Call → Bool
  | .returned _ => true
  | _ => false

theorem Call.begun_of_busy (busy : call.busy = true) : call.begun = true := by cases call <;> first | rfl | cases busy

theorem Call.ended_of_begun (begun : call.begun = true) (quiet : call.busy = false) : call.ended = true := by
  cases call with
  | returned outcome => rfl
  | idle | reading token expiry refresh => cases begun
  | refreshing refresh | answered resp | failed => cases quiet

theorem Call.busy_of_installing (installing : call.installing = true) : call.busy = true := by
  cases call <;> first | rfl | cases installing

theorem Call.quiet_of_ended (ended : call.ended = true) : call.busy = false := by
  cases call <;> first | rfl | cases ended

/-- At most one call refreshes, and it has the stored token. A call that may still refresh has met a success only
    if that is not installed yet, or if it read another token. -/
structure Ordered (s : System) : Prop extends Rotating s where
  alone : ∀ i j, (s.calls i).busy = true → (s.calls j).busy = true → i = j
  current : ∀ i refresh, s.calls i = .refreshing refresh → refresh ≠ "" ∧ refresh = s.client.refreshToken
  success : ∀ j, s.succeeded j = true → (s.calls j).installing = true ∨ (s.calls j).ended = true
  issues : ∀ j, (s.calls j).busy = true → s.issued ≠ []
  begun : ∀ i j, s.met i j = true → s.calls i ≠ .idle ∧ (s.calls j).begun = true ∧ s.issued ≠ []
  reading : ∀ i token expiry j, s.calls i = .reading token expiry s.client.refreshToken → s.met i j = true →
    s.succeeded j = true → (s.calls j).installing = true
  trying : ∀ i j, (s.calls i = .failed ∨ ∃ refresh, s.calls i = .refreshing refresh) → s.met i j = true →
    s.succeeded j = false
  expired : ∀ i j, s.calls i = .returned .errTokenExpired → s.met i j = true →
    s.succeeded j = false ∧ (s.calls j).ended = true
  once : s.repeated = []

theorem init_ordered (client : OAuthClient) (now : Int) : Ordered (init client now) := by
  refine ⟨init_rotating client now,?_,?_,?_,?_,?_,?_,?_,?_,rfl⟩ <;> simp [init,busy]

attribute [local grind] Call.busy Call.begun Call.installing Call.ended Call.active

section
variable (valid : Ordered s)
include valid

theorem Ordered.read (idle : s.calls i = .idle) :
    Ordered { s.set i (.reading s.client.cachedToken s.client.tokenExpiry s.client.refreshToken) with
      met := fun k j => s.met k j || (k = i && (s.calls j).busy) } := by
  refine ⟨valid.goes_on _ s.repeated (by simp [idle]) nofun (by simp [held]),?_,?_,?_,?_,?_,?_,?_,?_,valid.once⟩
  all_goals simp only [System.set] at *
  all_goals grind [Ordered,begun_of_busy,quiet_of_ended]

/-- A call that has the stored refresh token, and met no refresh that is over with success, begins its own. -/
theorem Ordered.refresh {token : Option TokenResponse} {expiry : Int}
    (reading : s.calls i = .reading token expiry s.client.refreshToken) (named : s.client.refreshToken ≠ "")
    (quiet : ∀ j, (s.calls j).busy = false) : Ordered { s.set i (.refreshing s.client.refreshToken) with
      met := fun k j => s.met k j || (j = i && (s.calls k).active) } := by
  have known := valid.known
  have held : ∀ refresh, held (.refreshing s.client.refreshToken) = some refresh →
      (s.calls i).held = some refresh ∨ refresh = s.client.refreshToken := by simp [held]
  refine ⟨valid.goes_on _ s.repeated (by simp [reading]) nofun held,?_,?_,?_,?_,?_,?_,?_,?_,valid.once⟩
  all_goals simp only [System.set] at *
  all_goals grind [Ordered,Known,busy_of_installing]

theorem Ordered.return_reading {token : Option TokenResponse} {expiry : Int}
    {refresh : String} (reading : s.calls i = .reading token expiry refresh) {outcome : Outcome}
    (missing : outcome = .errTokenExpired → refresh = "") : Ordered (s.set i (.returned outcome)) := by
  have known := valid.held i refresh (by rw [reading]; rfl)
  refine ⟨valid.goes_on s.met s.repeated (by simp [reading]) nofun nofun,?_,?_,?_,?_,?_,?_,?_,?_,valid.once⟩
  all_goals simp only [System.set] at *
  all_goals grind [Ordered,Known]

theorem Ordered.fail {refresh : String} (sent : s.calls i = .refreshing refresh) : Ordered (s.set i .failed) := by
  refine ⟨valid.goes_on s.met s.repeated (by simp [sent]) nofun nofun,?_,?_,?_,?_,?_,?_,?_,?_,valid.once⟩
  all_goals simp only [System.set] at *
  all_goals grind [Ordered]

theorem Ordered.giveUp (failed : s.calls i = .failed) : Ordered (s.set i (.returned .errTokenExpired)) := by
  have others : ∀ j, s.met i j = true → j ≠ i → (s.calls j).ended = true := by
    intro j met other
    refine ended_of_begun (valid.begun i j met).2.1 (Bool.eq_false_iff.mpr fun busy => other ?_)
    exact valid.alone j i busy (by rw [failed]; rfl)
  refine ⟨valid.goes_on s.met s.repeated (by simp [failed]) nofun nofun,?_,?_,?_,?_,?_,?_,?_,?_,valid.once⟩
  all_goals simp only [System.set] at *
  all_goals grind [Ordered]

theorem Ordered.honours {refresh : String} (sent : s.calls i = .refreshing refresh) : s.honours refresh := by
  have busy : (s.calls i).busy = true := by rw [sent]; rfl
  have settled := valid.settled (fun j resp answered => by
    obtain rfl := valid.alone i j busy (by rw [answered]; rfl)
    rw [sent] at answered
    cases answered)
  rw [valid.honours_iff,(valid.current i refresh sent).2,settled]
  cases issued : s.issued with
  | nil => exact absurd issued (valid.issues i busy)
  | cons first rest => rfl

theorem Ordered.redeem {refresh : String}
    (sent : s.calls i = .refreshing refresh) (named : resp.refreshToken ≠ "") (unused : resp.refreshToken ∉ s.issued) :
    Ordered { s.set i (.answered resp) with
      issued := resp.refreshToken :: s.issued
      redeemed := refresh :: s.redeemed
      succeeded := fun k => s.succeeded k || k = i } := by
  refine ⟨valid.toRotating.redeem sent (valid.honours sent) named unused _,?_,?_,?_,?_,?_,?_,?_,?_,valid.once⟩
  all_goals simp only [System.set] at *
  all_goals grind [Ordered]

theorem Ordered.install (answered : s.calls i = .answered resp) :
    Ordered { s.set i (.returned (.accessToken resp.accessToken)) with client := s.client.setToken s.now resp } := by
  have member : resp.refreshToken ∈ s.issued := mem_of_mem_head? (valid.last i resp answered)
  have named : resp.refreshToken ≠ "" := fun blank => valid.named (blank ▸ member)
  have stale := fun j refresh => valid.unshared i resp j refresh answered
  refine ⟨valid.toRotating.install answered _,?_,?_,?_,?_,?_,?_,?_,?_,valid.once⟩
  all_goals simp only [System.set,OAuthClient.setToken] at *
  all_goals grind [Ordered,held]

theorem step_ordered {s' : System} (a : Action) (serial : Serial s a) (moved : step s a = some s') : Ordered s' := by
  cases a with simp only [step] at moved
  | tick elapsed =>
    cases moved
    exact { valid with }
  | read i =>
    split at moved
    · rename_i idle
      cases moved
      exact valid.read idle
    · cases moved
  | decide i =>
    split at moved
    · rename_i token expiry refresh reading
      split at moved
      · cases moved
        exact valid.return_reading reading nofun
      · rename_i unusable
        split at moved
        · rename_i missing
          cases moved
          exact valid.return_reading reading (fun _ => missing)
        · rename_i named
          cases moved
          obtain ⟨rfl,quiet⟩ := serial token expiry refresh reading unusable named
          exact valid.refresh reading named quiet
    · cases moved
  | unreachable i =>
    split at moved
    · rename_i refresh sent
      cases moved
      exact valid.fail sent
    · cases moved
  | redeem i resp =>
    split at moved
    · rename_i refresh sent
      rw [if_pos (valid.honours sent)] at moved
      split at moved
      · rename_i rotates
        cases moved
        exact valid.redeem sent rotates.1 rotates.2
      · cases moved
    · cases moved
  | install i =>
    split at moved
    · rename_i resp answered
      cases moved
      exact valid.install answered
    · cases moved
  | giveUp i =>
    split at moved
    · rename_i failed
      cases moved
      exact valid.giveUp failed
    · cases moved

theorem Ordered.orderly : Orderly s where
  once := valid.once
  stored settled issued := by
    rw [valid.settled settled]
    cases known : s.issued with
    | nil => exact absurd known issued
    | cons first rest => rfl
  overlapped i j returned met := (valid.expired i j returned met).1

end

/-- If refreshes follow one after the other, each from the stored refresh token, no token is
    redeemed twice and no call fails beside a refresh that succeeds. -/
theorem serial_orderly {client : OAuthClient} {now : Int} {s : System}
    (reached : Reachable step Serial (init client now) s) : Orderly s :=
  (reached.invariant (init_ordered client now) (fun _ a _ valid serial moved =>
    step_ordered valid a serial moved)).orderly

def expiredClient : OAuthClient := ⟨some ⟨"a0",0,"r0"⟩,0,"r0"⟩

theorem serial_orderly_twice : ∃ s, Reachable step Serial (init expiredClient 1) s ∧
    s.calls 1 = .returned (.accessToken "a1") ∧ Orderly s := by
  have read : Reachable step Serial (init expiredClient 1) _ := Reachable.start.next (Action.read 0) trivial rfl
  have sent := read.next (Action.decide 0) (fun token expiry refresh reading _ _ => by
    cases reading
    refine ⟨rfl,fun j => ?_⟩
    change busy (if j = 0 then _ else _) = false
    split <;> rfl) rfl
  have installed := (sent.next (Action.redeem 0 ⟨"a1",3600,"r1"⟩) trivial rfl).next (Action.install 0) trivial rfl
  have again := installed.next (Action.read 1) trivial rfl
  have reached := again.next (Action.decide 1) (fun token expiry refresh reading unusable _ => by
    cases reading
    cases unusable) rfl
  exact ⟨_,reached,rfl,serial_orderly reached⟩

/-- Two calls read the expired token before either refreshes; the second sends the redeemed one and fails. -/
theorem overlapping_calls_disorderly : ∃ s, Reachable step free (init expiredClient 1) s ∧
    s.repeated = ["r0"] ∧ s.calls 1 = .returned .errTokenExpired ∧ s.client.cachedToken = some ⟨"a1",3600,"r1"⟩ ∧
    s.now < s.client.tokenExpiry ∧ ¬ Orderly s := by
  refine ⟨_,exec_reachable [.read 0,.read 1,.decide 0,.decide 1,.redeem 0 ⟨"a1",3600,"r1"⟩,.install 0,
    .redeem 1 ⟨"a2",3600,"r2"⟩,.giveUp 1] .start rfl,rfl,rfl,rfl,by decide,fun orderly => ?_⟩
  exact absurd (orderly.overlapped 1 0 rfl rfl) nofun

end Mcpkit.TokenRefresh
