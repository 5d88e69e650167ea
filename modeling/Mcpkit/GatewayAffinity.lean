import Mcpkit.GatewayModel

/-!
Session affinity. The middleware finds or assigns the upstream of a session and then calls the
next handler as it is, with the request as it came.
-/
namespace Mcpkit.GatewayAffinity
open GoMaps RegistryModel GatewayBreaker GatewayModel Noninterference List Finmap
variable {σ : Type}

abbrev Selector (σ : Type) := σ → List String → String × σ

def roundRobin : Selector UInt64 := fun counter upstreams =>
  if upstreams.length = 0 then ("",counter)
  else (upstreams.getD (counter % UInt64.ofNat upstreams.length).toNat "",counter+1)

structure SessionAffinity (σ : Type) where
  mapping : GoMap String
  selector : σ

def newSessionAffinity (selector : σ) : SessionAffinity σ := ⟨∅,selector⟩

variable (sa : SessionAffinity σ)

/-- `assignUpstream`, for what `ListUpstreams` returns; the second look at the mapping is that of the double check. -/
def SessionAffinity.assignUpstream (select : Selector σ) (sessionID : String)
    (upstreams : List String) : String × SessionAffinity σ :=
  if upstreams.length = 0 then ("",sa)
  else
    let (selected,selector) := select sa.selector upstreams
    if selected = "" then ("",{ sa with selector := selector })
    else
      match sa.mapping.lookup sessionID with
      | some existing => (existing,{ sa with selector := selector })
      | none => (selected,⟨sa.mapping.insert sessionID selected,selector⟩)

/-- The session of a call, what `ListUpstreams` returns the first and the second time, and the upstreams that let
    the call through. -/
structure Call where
  session : Option String
  ns : String
  toolName : String
  listed : List String
  relisted : List String
  admits : String → Bool

variable (g : Gateway) (select : Selector σ)

def SessionAffinity.verify (sessionID upstream : String) (relisted : List String) : SessionAffinity σ :=
  if upstream ∈ g.upstreams then sa
  else (SessionAffinity.assignUpstream { sa with mapping := sa.mapping.erase sessionID } select sessionID relisted).2

variable (call : Call)

/-- What the middleware does before it calls the next handler, on every path. -/
def SessionAffinity.prepare : SessionAffinity σ :=
  match call.session with
  | none => sa
  | some sessionID =>
    match sa.mapping.lookup sessionID with
    | some upstream => sa.verify g select sessionID upstream call.relisted
    | none =>
      let (upstream,sa) := sa.assignUpstream select sessionID call.listed
      if upstream = "" then sa else sa.verify g select sessionID upstream call.relisted

def SessionAffinity.getAffinity (sessionID : String) : Option String :=
  sa.mapping.lookup sessionID

/-- The client that a call reaches is that of its tool's handler, if it is registered. -/
def executes : Option String :=
  match g.reg.tools.lookup (namespacedName call.ns call.toolName) with
  | none => none
  | some td =>
    if td.handler.upstreamName ∈ g.upstreams ∧ call.admits td.handler.upstreamName then some td.handler.upstreamName
    else none

/-- The upstream that executes a call, and what `GetAffinity` reports for its session afterwards. The next handler
    gets the request as it came. -/
def middleware (sa : SessionAffinity σ) (call : Call) : (Option String × Option String) × SessionAffinity σ :=
  let sa := sa.prepare g select call
  ((executes g call,call.session.bind sa.getAffinity),sa)

/-- All calls of the session are executed by one upstream, and it is the one that `GetAffinity` reports. -/
def Pinned (sessionID : String) (log : List (Call × (Option String × Option String))) : Prop :=
  ∃ upstream, ∀ entry ∈ log, entry.1.session = some sessionID → entry.2 = (some upstream,some upstream)

def Offered : Prop :=
  call.ns ∈ g.upstreams ∧
    ∀ upstream ∈ g.upstreams, g.bound (namespacedName upstream call.toolName) = some (upstream,call.toolName)

/-! ### The upstream of a session -/

/-- What a selector gives: nothing, if there is no upstream or the name is empty. -/
def picked (selector : σ) (upstreams : List String) : Option String :=
  if upstreams.length = 0 ∨ (select selector upstreams).1 = "" then none else some (select selector upstreams).1

def asked (selector : σ) (upstreams : List String) : σ :=
  if upstreams.length = 0 then selector else (select selector upstreams).2

/-- The upstream that a session will have: its own, if that is registered, or else the
    one that the selector picks, with one more try if that one is not registered. -/
def choice (sa : SessionAffinity σ) (sessionID : String) (call : Call) : Option String :=
  match sa.mapping.lookup sessionID with
  | some upstream => if upstream ∈ g.upstreams then some upstream else picked select sa.selector call.relisted
  | none =>
    match picked select sa.selector call.listed with
    | none => none
    | some upstream =>
      if upstream ∈ g.upstreams then some upstream
      else picked select (asked select sa.selector call.listed) call.relisted

variable (select : Selector σ) {call} {sessionID : String}

open SessionAffinity

theorem assignUpstream_new {sa : SessionAffinity σ} (free : sa.mapping.lookup sessionID = none)
    (upstreams : List String) : sa.assignUpstream select sessionID upstreams =
      ((picked select sa.selector upstreams).getD "",
        ⟨match picked select sa.selector upstreams with
          | none => sa.mapping
          | some upstream => sa.mapping.insert sessionID upstream,
        asked select sa.selector upstreams⟩) := by
  unfold assignUpstream picked asked
  by_cases none : upstreams.length = 0
  · simp [none]
  · by_cases nameless : (select sa.selector upstreams).1 = ""
    · simp [none,nameless]
    · simp [none,nameless,free]

variable {upstream : String}

theorem picked_ne_empty {select : Selector σ} {selector : σ} {upstreams : List String}
    (some' : picked select selector upstreams = some upstream) : upstream ≠ "" := by
  unfold picked at some'
  split at some'
  · cases some'
  · rename_i named
    cases some'
    exact fun empty => named (.inr empty)

theorem prepare_choice (g : Gateway) (select : Selector σ) (sa : SessionAffinity σ)
    (session : call.session = some sessionID) :
    (sa.prepare g select call).getAffinity sessionID = choice g select sa sessionID call := by
  have again : ∀ sa : SessionAffinity σ,
      (assignUpstream { sa with mapping := sa.mapping.erase sessionID } select sessionID
        call.relisted).2.getAffinity sessionID = picked select sa.selector call.relisted := by
    intro sa
    rw [assignUpstream_new select (lookup_erase _ _)]
    cases picked select sa.selector call.relisted with
    | none => exact lookup_erase _ _
    | some upstream => exact lookup_insert _
  unfold prepare choice
  rw [session]
  dsimp only
  cases known : sa.mapping.lookup sessionID with
  | some upstream =>
    dsimp only [verify]
    split
    · exact known
    · exact again sa
  | none =>
    rw [assignUpstream_new select known]
    cases pick : picked select sa.selector call.listed with
    | none => simpa [getAffinity] using known
    | some upstream =>
      simp only [Option.getD_some,picked_ne_empty pick,↓reduceIte,verify]
      split
      · exact lookup_insert _
      · exact again ⟨sa.mapping.insert sessionID upstream,asked select sa.selector call.listed⟩

/-! ### Calls of other sessions -/

theorem assignUpstream_frame (sa : SessionAffinity σ) {other : String} (different : sessionID ≠ other)
    (upstreams : List String) :
    (sa.assignUpstream select other upstreams).2.mapping.lookup sessionID = sa.mapping.lookup sessionID := by
  unfold assignUpstream
  dsimp only
  split
  · rfl
  · split
    · rfl
    · split
      · rfl
      · exact lookup_insert_of_ne _ different

theorem verify_frame (g : Gateway) (select : Selector σ) (sa : SessionAffinity σ) {other : String}
    (different : sessionID ≠ other) (upstream : String) (relisted : List String) :
    (sa.verify g select other upstream relisted).mapping.lookup sessionID = sa.mapping.lookup sessionID := by
  unfold verify
  split
  · rfl
  · rw [assignUpstream_frame select _ different]
    exact lookup_erase_ne different

theorem prepare_frame (g : Gateway) (select : Selector σ) (sa : SessionAffinity σ)
    (different : call.session ≠ some sessionID) :
    (sa.prepare g select call).mapping.lookup sessionID = sa.mapping.lookup sessionID := by
  unfold prepare
  cases session : call.session with
  | none => rfl
  | some other =>
    have apart : sessionID ≠ other := fun same => different (by rw [session,same])
    dsimp only
    split
    · exact verify_frame g select sa apart _ _
    · split
      · exact assignUpstream_frame select sa apart _
      · rw [verify_frame g select _ apart]
        exact assignUpstream_frame select sa apart _

/-! ### When the calls of a session stay together -/

/-- The calls name the upstream that the session has or is about to be given, which lets them through. -/
def Follows (g : Gateway) (select : Selector σ) (sessionID : String) : SessionAffinity σ → List Call → Prop
  | _,[] => True
  | sa,call :: rest =>
    (call.session = some sessionID → choice g select sa sessionID call = some call.ns ∧ call.admits call.ns = true) ∧
      Follows g select sessionID (middleware g select sa call).2 rest

variable {g}

theorem Offered.executes_eq (offers : Offered g call) :
    executes g call = if call.admits call.ns then some call.ns else none := by
  obtain ⟨listed,all⟩ := offers
  obtain ⟨td,registered,stands⟩ := Option.map_eq_some_iff.mp (all call.ns listed)
  have target : td.handler.upstreamName = call.ns := congrArg Prod.fst stands
  unfold executes
  rw [registered]
  simp [target,listed]

theorem choice_registered {sa : SessionAffinity σ} (known : sa.mapping.lookup sessionID = some upstream)
    (listed : upstream ∈ g.upstreams) (call : Call) : choice g select sa sessionID call = some upstream := by
  simp [choice,known,listed]

theorem middleware_answer (sa : SessionAffinity σ) (session : call.session = some sessionID) (offers : Offered g call) :
    (middleware g select sa call).1 =
      (if call.admits call.ns then some call.ns else none,choice g select sa sessionID call) := by
  unfold middleware
  rw [← prepare_choice g select sa session,← offers.executes_eq,session]
  rfl

theorem Follows.settled {select : Selector σ} (listed : upstream ∈ g.upstreams) :
    ∀ {calls : List Call} {sa : SessionAffinity σ},
    (∀ call ∈ calls, call.session = some sessionID → Offered g call) → sa.mapping.lookup sessionID = some upstream →
    Follows g select sessionID sa calls →
    ∀ entry ∈ (run (middleware g select) sa calls).1, entry.1.session = some sessionID →
      entry.2 = (some upstream,some upstream) := by
  intro calls
  induction calls with
  | nil => intro sa offers known follows entry logged; cases logged
  | cons call rest ih =>
    intro sa offers known follows entry logged session
    -- the session keeps its upstream, whoever makes the call
    have kept : (middleware g select sa call).2.mapping.lookup sessionID = some upstream := by
      by_cases own : call.session = some sessionID
      · exact (prepare_choice g select sa own).trans (choice_registered select known listed call)
      · exact (prepare_frame g select sa own).trans known
    rcases List.mem_cons.mp logged with first | later
    · subst first
      obtain ⟨named,admitted⟩ := follows.1 session
      have stays := choice_registered select known listed call
      have same : call.ns = upstream := Option.some.inj (named.symm.trans stays)
      rw [middleware_answer select sa session (offers call mem_cons_self session),stays,admitted,same]
      rfl
    · exact ih (fun call member => offers call (mem_cons_of_mem _ member)) kept follows.2 entry later session

theorem Follows.pinned {select : Selector σ} : ∀ {calls : List Call}
    {sa : SessionAffinity σ}, (∀ call ∈ calls, call.session = some sessionID → Offered g call) →
    Follows g select sessionID sa calls → Pinned sessionID (run (middleware g select) sa calls).1 := by
  intro calls
  induction calls with
  | nil => intro sa offers follows; exact ⟨"",fun entry logged => nomatch logged⟩
  | cons call rest ih =>
    intro sa offers follows
    have later : ∀ call ∈ rest, call.session = some sessionID → Offered g call :=
      fun call member => offers call (mem_cons_of_mem _ member)
    by_cases own : call.session = some sessionID
    · obtain ⟨named,admitted⟩ := follows.1 own
      have offer := offers call mem_cons_self own
      have known : (middleware g select sa call).2.mapping.lookup sessionID = some call.ns :=
        (prepare_choice g select sa own).trans named
      refine ⟨call.ns,fun entry logged session => ?_⟩
      rcases List.mem_cons.mp logged with first | rest
      · subst first
        rw [middleware_answer select sa own offer,named,admitted]
        rfl
      · exact Follows.settled offer.1 later known follows.2 entry rest session
    · obtain ⟨upstream,together⟩ := ih later follows.2
      refine ⟨upstream,fun entry logged session => ?_⟩
      rcases List.mem_cons.mp logged with first | rest
      · subst first
        exact absurd session own
      · exact together entry rest session

theorem Pinned.follows {select : Selector σ} : ∀ {calls : List Call}
    {sa : SessionAffinity σ}, (∀ call ∈ calls, call.session = some sessionID → Offered g call) →
    Pinned sessionID (run (middleware g select) sa calls).1 → Follows g select sessionID sa calls := by
  intro calls
  induction calls with
  | nil => intro sa offers pinned; trivial
  | cons call rest ih =>
    rintro sa offers ⟨upstream,together⟩
    refine ⟨fun own => ?_,ih (fun call member => offers call (mem_cons_of_mem _ member))
      ⟨upstream,fun entry logged => together entry (mem_cons_of_mem _ logged)⟩⟩
    have answer := together _ mem_cons_self own
    rw [middleware_answer select sa own (offers call mem_cons_self own)] at answer
    obtain ⟨executed,reported⟩ := Prod.mk.inj answer
    split at executed
    · rename_i admitted
      exact ⟨reported.trans executed.symm,admitted⟩
    · cases executed

/-- The calls of a session are executed by the upstream that it was given exactly when they all name that upstream. -/
theorem affinity_routes_iff (g : Gateway) (select : Selector σ) (sa : SessionAffinity σ) (sessionID : String)
    (calls : List Call) (offers : ∀ call ∈ calls, call.session = some sessionID → Offered g call) :
    Pinned sessionID (run (middleware g select) sa calls).1 ↔ Follows g select sessionID sa calls :=
  ⟨Pinned.follows offers,Follows.pinned offers⟩

/-! ### Two upstreams with one tool -/

def searchUpstream (name : String) (client : Nat) : Upstream :=
  connected ⟨name,[],⟨none,false,0,none⟩⟩ client [⟨"search","",""⟩]

def pair : Gateway :=
  let g := ((newGateway ⟨none,id⟩).commit (searchUpstream "a" 0)).toOption.getD (newGateway ⟨none,id⟩)
  (g.commit (searchUpstream "b" 1)).toOption.getD g

def search (ns : String) : Call := ⟨some "session",ns,"search",["a","b"],["a","b"],fun _ => true⟩

theorem pair_upstreams {name : String} : name ∈ pair.upstreams ↔ name = "a" ∨ name = "b" := by
  have keys : pair.upstreams.keys = {"a","b"} := by decide
  rw [← Finmap.mem_keys,keys]
  simp

theorem search_offered {ns : String} (listed : ns ∈ pair.upstreams) : Offered pair (search ns) := by
  refine ⟨listed,fun upstream present => ?_⟩
  change pair.bound (namespacedName upstream "search") = some (upstream,"search")
  rcases pair_upstreams.mp present with same | same
  · subst same; decide
  · subst same; decide

theorem affinity_routes_sample :
    Pinned "session" (run (middleware pair roundRobin) (newSessionAffinity 0) [search "a",search "a"]).1 := by
  refine (affinity_routes_iff pair roundRobin (newSessionAffinity 0) "session" [search "a",search "a"] ?_).mpr ?_
  · intro call member _
    simp only [mem_cons,not_mem_nil,or_false,or_self] at member
    rw [member]
    exact search_offered (pair_upstreams.mpr (.inl rfl))
  · exact ⟨fun _ => by decide,fun _ => by decide,trivial⟩

/-- The session is given `a`, and the call is executed by `b`. -/
theorem name_decides_the_upstream : Offered pair (search "b") ∧
    ((run (middleware pair roundRobin) (newSessionAffinity 0) [search "b"]).1.map (·.2)) = [(some "b",some "a")] ∧
    ¬ Pinned "session" (run (middleware pair roundRobin) (newSessionAffinity 0) [search "b"]).1 := by
  have answered : (middleware pair roundRobin (newSessionAffinity 0) (search "b")).1 = (some "b",some "a") := by
    decide
  refine ⟨search_offered (pair_upstreams.mpr (.inr rfl)),by simp [run,answered],?_⟩
  rintro ⟨upstream,together⟩
  have answer := together _ mem_cons_self rfl
  obtain ⟨executed,reported⟩ := Prod.mk.inj (answered.symm.trans answer)
  exact absurd (executed.trans reported.symm) (by decide)

end Mcpkit.GatewayAffinity
