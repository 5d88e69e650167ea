import Mcpkit.DeviceModel

/-!
Who owns a device's connection. As long as each device has one call or goroutine at work, that one
has the open connection of the device, and the map has it too unless a `Disconnect` is about to
close it.
-/
namespace Mcpkit.DeviceOwnership
open Transitions DeviceModel

/-! ### What is at work for a device -/

inductive Agent where
  | connect (k : Nat)
  | goroutine (c : Nat)
  deriving DecidableEq

/-- An agent has no connection, one that is not in the map yet, or one that it has put there. -/
inductive Work where
  | early (id : String)
  | flying (id : String) (c : Nat)
  | holding (id : String) (c : Nat)

def Work.device : Work → String
  | .early id | .flying id _ | .holding id _ => id

def Work.conn : Work → Option Nat
  | .early _ => none
  | .flying _ c | .holding _ c => some c

def Connect.work : Connect → Option Work
  | .idle | .returned => none
  | .checked id => some (.early id)
  | .opened id c | .failing id c | .started id c => some (.flying id c)
  | .stored id c => some (.holding id c)

def Phase.work (id : String) (c : Nat) : Phase → Option Work
  | .absent | .ended => none
  | .forwarding => some (.holding id c)
  | .removed | .waiting _ | .opening _ => some (.early id)
  | .opened c' _ | .failing c' _ | .started c' | .refused c' => some (.flying id c')
  | .stored c' => some (.holding id c')

def work (s : System) : Agent → Option Work
  | .connect k => Connect.work (s.connects k)
  | .goroutine c => Phase.work (s.goroutines c).id c (s.goroutines c).phase

@[simp] theorem work_setConnect (s : System) (k : Nat) (call : Connect) (a : Agent) :
    work (s.setConnect k call) a = if a = .connect k then Connect.work call else work s a := by
  cases a with
  | connect j => simp only [work,System.setConnect,Agent.connect.injEq]; split <;> rfl
  | goroutine c => rfl

@[simp] theorem work_setPhase (s : System) (c : Nat) (phase : Phase) (a : Agent) :
    work (s.setPhase c phase) a = if a = .goroutine c then Phase.work (s.goroutines c).id c phase else work s a := by
  cases a with
  | connect j => rfl
  | goroutine j => simp only [work,System.setPhase,Agent.goroutine.injEq]; split <;> simp_all

attribute [local simp] Phase.work Connect.work

variable (s : System) (id : String)

@[simp] theorem work_spawn (c : Nat) (a : Agent) :
    work (s.spawn id c) a = if a = .goroutine c then some (.holding id c) else work s a := by
  cases a with
  | connect j => rfl
  | goroutine j => simp only [work,System.spawn,Agent.goroutine.injEq]; split <;> simp_all

@[simp] theorem work_setDisconnect (k : Nat) (call : Disconnect) : work (s.setDisconnect k call) = work s := by
  funext a; cases a <;> rfl

@[simp] theorem work_setConn (conn : Option Nat) : work (s.setConn id conn) = work s := by
  funext a; cases a <;> rfl

@[simp] theorem work_setDevice (flag : Bool) : work (s.setDevice id flag) = work s := by
  funext a; cases a <;> rfl

@[simp] theorem work_add : work (s.add id) = work s := by funext a; cases a <;> rfl

@[simp] theorem work_shut (c : Nat) : work (s.shut c) = work s := by funext a; cases a <;> rfl

/-! ### The invariant -/

/-- Each device has at most one agent at work. Open connections are with an agent, those in the map with the one
    that put them there, until they end or a `Disconnect` takes them out. -/
structure Valid : Prop where
  alone : ∀ a b u v, work s a = some u → work s b = some v → u.device = v.device → a = b
  born : ∀ c u, work s (.goroutine c) = some u → c < s.next ∧ (s.opened c).device = u.device
  located : ∀ a u c, work s a = some u → u.conn = some c → c < s.next ∧ (s.opened c).device = u.device
  unused : ∀ c, s.next ≤ c → (s.opened c).isOpen = false
  carried : ∀ c, (s.opened c).isOpen = true → ∃ a u, work s a = some u ∧ u.conn = some c
  stored : ∀ id c, s.conns id = some c → ∃ a, work s a = some (.holding id c)
  held : ∀ a id c, work s a = some (.holding id c) → (s.opened c).isOpen = true →
    s.conns id = some c ∨ ∃ k, s.disconnects k = .closing c
  kept : s.usurped = false

attribute [local grind] Work.conn Work.device

theorem init_valid : Valid init := by
  have idle : ∀ a, work init a = none := by intro a; cases a <;> rfl
  refine ⟨?_,?_,?_,fun _ _ => rfl,nofun,nofun,?_,rfl⟩ <;> simp [idle]

structure Changed (s s' : System) (a : Agent) (w : Option Work) : Prop where
  self : work s' a = w
  others : ∀ b, b ≠ a → work s' b = work s b

/-- The agent works for the device it had, or is a call for one that nobody works for. -/
def Continues (s : System) (a : Agent) (w : Option Work) : Prop :=
  ∀ v, w = some v → (∃ u, work s a = some u ∧ u.device = v.device) ∨
    ((∃ k, a = .connect k) ∧ ∀ b u, work s b = some u → u.device ≠ v.device)

variable {s s' : System} {a : Agent} {w : Option Work}

theorem Changed.alone (changed : Changed s s' a w) (valid : Valid s) (device : Continues s a w) :
    ∀ b b' u v, work s' b = some u → work s' b' = some v → u.device = v.device → b = b' := by
  have fixed : ∀ b u v, b ≠ a → work s' b = some u → work s' a = some v → u.device ≠ v.device := by
    intro b u v other works works' same
    rw [changed.others b other] at works
    rw [changed.self] at works'
    rcases device v works' with ⟨old,before,also⟩ | ⟨-,nobody⟩
    · exact other (valid.alone b a u old works before (same.trans also.symm))
    · exact nobody b u works same
  intro b b' u v works works' same
  by_cases first : b = a
  · by_cases second : b' = a
    · exact first.trans second.symm
    · exact absurd same.symm (fixed b' v u second works' (first ▸ works))
  · by_cases second : b' = a
    · exact absurd same (fixed b u v first works (second ▸ works'))
    · rw [changed.others b first] at works
      rw [changed.others b' second] at works'
      exact valid.alone b b' u v works works' same

theorem Changed.born (changed : Changed s s' a w) (valid : Valid s) (device : Continues s a w)
    (next : s.next ≤ s'.next) (devices : ∀ c, c < s.next → (s'.opened c).device = (s.opened c).device) :
    ∀ c u, work s' (.goroutine c) = some u → c < s'.next ∧ (s'.opened c).device = u.device := by
  intro c u works
  have old : ∃ v, work s (.goroutine c) = some v ∧ v.device = u.device := by
    by_cases same : .goroutine c = a
    · subst same
      rw [changed.self] at works
      rcases device u works with old | ⟨⟨k,is⟩,-⟩
      · exact old
      · cases is
    · exact ⟨u,changed.others _ same ▸ works,rfl⟩
  obtain ⟨v,before,also⟩ := old
  obtain ⟨inside,located⟩ := valid.born c v before
  exact ⟨Nat.lt_of_lt_of_le inside next,(devices c inside).trans (located.trans also)⟩

structure Same (s s' : System) : Prop where
  conns : s'.conns = s.conns
  opened : s'.opened = s.opened
  next : s'.next = s.next
  closing : ∀ k c, s.disconnects k = .closing c → s'.disconnects k = .closing c
  usurped : s'.usurped = s.usurped

theorem Valid.same (valid : Valid s) (same : Same s s') (works : ∀ b, work s' b = work s b) : Valid s' := by
  obtain ⟨conns,opened,next,closing,usurped⟩ := same
  obtain ⟨alone,born,located,unused,carried,stored,held,kept⟩ := valid
  constructor <;> simp only [conns,opened,next,usurped,works]
  all_goals first | assumption | grind

theorem Valid.idle (valid : Valid s) (same : Same s s') (changed : Changed s s' a w) (device : Continues s a w)
    (before : ∀ u, work s a = some u → u.conn = none) (after : ∀ v, w = some v → v.conn = none) : Valid s' := by
  have alone := changed.alone valid device
  have born := changed.born valid device (Nat.le_of_eq same.next.symm) fun c _ => by rw [same.opened]
  obtain ⟨conns,opened,next,closing,usurped⟩ := same
  obtain ⟨-,-,located,unused,carried,stored,held,kept⟩ := valid
  obtain ⟨self,others⟩ := changed
  refine ⟨alone,born,?_,?_,?_,?_,?_,?_⟩ <;> simp only [conns,opened,next,usurped]
  · grind
  · exact unused
  · grind
  · grind
  · intro b d c' works isOpen
    have other : b ≠ a := by rintro rfl; grind
    grind
  · exact kept

variable {id}

theorem Valid.open (valid : Valid s) (before : work s a = some (.early id))
    (changed : Changed s s' a (some (.flying id s.next))) (conns : s'.conns = s.conns) (next : s'.next = s.next+1)
    (disconnects : s'.disconnects = s.disconnects) (usurped : s'.usurped = s.usurped)
    (opened : ∀ c, s'.opened c = if c = s.next then ⟨id,true⟩ else s.opened c) : Valid s' := by
  have continues : Continues s a (some (.flying id s.next)) := by rintro v ⟨⟩; exact .inl ⟨_,before,rfl⟩
  have alone := changed.alone valid continues
  have born := changed.born valid continues (by omega) fun c inside => by rw [opened,if_neg (by omega)]
  obtain ⟨-,-,located,unused,carried,stored,held,kept⟩ := valid
  obtain ⟨self,others⟩ := changed
  refine ⟨alone,born,?_,?_,?_,?_,?_,?_⟩ <;> simp only [conns,opened,next,disconnects,usurped]
  · grind
  · grind
  · grind
  · grind
  · intro b d c' works isOpen
    have other : b ≠ a := by rintro rfl; grind
    grind
  · exact kept

variable {c k : Nat}

section
variable (valid : Valid s)
include valid

theorem Valid.drop (before : work s a = some (.flying id c))
    (changed : Changed s s' a w) (after : ∀ v, w = some v → v = .early id) (conns : s'.conns = s.conns)
    (next : s'.next = s.next) (disconnects : s'.disconnects = s.disconnects) (usurped : s'.usurped = s.usurped)
    (opened : ∀ j, s'.opened j = if j = c then ⟨(s.opened c).device,false⟩ else s.opened j) : Valid s' := by
  have continues : Continues s a w := by intro v is; exact .inl ⟨_,before,by rw [after v is]; rfl⟩
  have alone := changed.alone valid continues
  have born := changed.born valid continues (Nat.le_of_eq next.symm) fun j _ => by rw [opened]; split <;> simp_all
  obtain ⟨-,-,located,unused,carried,stored,held,kept⟩ := valid
  obtain ⟨self,others⟩ := changed
  refine ⟨alone,born,?_,?_,?_,?_,?_,?_⟩ <;> simp only [conns,opened,next,disconnects,usurped]
  · grind
  · grind
  · grind
  · grind
  · intro b d c' works isOpen
    have other : b ≠ a := by rintro rfl; grind
    grind
  · exact kept

theorem Valid.store (before : work s a = some (.flying id c))
    (changed : Changed s s' a (some (.holding id c))) (conns : ∀ d, s'.conns d = if d = id then some c else s.conns d)
    (next : s'.next = s.next) (disconnects : s'.disconnects = s.disconnects) (usurped : s'.usurped = s.usurped)
    (opened : s'.opened = s.opened) : Valid s' := by
  have unshared : ∀ b d c', work s b = some (.holding d c') → d ≠ id := by
    rintro b d c' works rfl
    obtain rfl := valid.alone b a _ _ works before rfl
    rw [before] at works
    cases works
  have continues : Continues s a (some (.holding id c)) := by rintro v ⟨⟩; exact .inl ⟨_,before,rfl⟩
  have alone := changed.alone valid continues
  have born := changed.born valid continues (Nat.le_of_eq next.symm) fun j _ => by rw [opened]
  obtain ⟨-,-,located,unused,carried,stored,held,kept⟩ := valid
  obtain ⟨self,others⟩ := changed
  refine ⟨alone,born,?_,?_,?_,?_,?_,?_⟩ <;> simp only [conns,opened,next,disconnects,usurped]
  · grind
  · exact unused
  · grind
  · grind
  · intro b d c' works isOpen
    by_cases same : b = a
    · subst same
      rw [self] at works
      cases works
      exact .inl (if_pos rfl)
    · rw [others b same] at works
      rw [if_neg (unshared b d c' works)]
      exact held b d c' works isOpen
  · exact kept

theorem Valid.spawn (same : Same s s') (before : work s a = some (.holding id c))
    (self : work s' (.goroutine c) = some (.holding id c)) (gone : a ≠ .goroutine c → work s' a = none)
    (others : ∀ x, x ≠ a → x ≠ .goroutine c → work s' x = work s x) : Valid s' := by
  obtain ⟨inside,device⟩ := valid.located a _ c before rfl
  have vacant : a ≠ .goroutine c → work s (.goroutine c) = none := by
    intro other
    cases works : work s (.goroutine c) with
    | none => rfl
    | some u => exact absurd (valid.alone a _ _ u before works (device.symm.trans (valid.born c u works).2)) other
  -- an agent of the new state stands for one of the old state, with the same work
  have origin : ∀ x u, work s' x = some u → (x = .goroutine c ∧ work s a = some u) ∨
      (x ≠ .goroutine c ∧ x ≠ a ∧ work s x = some u) := by
    intro x u works
    by_cases second : x = .goroutine c
    · subst second
      exact .inl ⟨rfl,before.trans (self.symm.trans works)⟩
    · by_cases first : x = a
      · subst first
        rw [gone second] at works
        cases works
      · exact .inr ⟨second,first,others x first second ▸ works⟩
  have image : ∀ y u, work s y = some u → ∃ x, work s' x = some u := by
    intro y u works
    by_cases first : y = a
    · subst first
      exact ⟨.goroutine c,self.trans (before.symm.trans works)⟩
    · refine ⟨y,(others y first ?_).trans works⟩
      rintro rfl
      rw [vacant (Ne.symm first)] at works
      cases works
  obtain ⟨conns,opened,next,closing,usurped⟩ := same
  obtain ⟨alone,born,located,unused,carried,stored,held,kept⟩ := valid
  have alone' : ∀ x y u v, work s' x = some u → work s' y = some v → u.device = v.device → x = y := by
    intro x y u v works works' same
    rcases origin x u works with ⟨rfl,old⟩ | ⟨-,apart,old⟩ <;> rcases origin y v works' with ⟨rfl,old'⟩ | ⟨-,apart',old'⟩
    · rfl
    · exact absurd (alone a y u v old old' same).symm apart'
    · exact absurd (alone x a u v old old' same) apart
    · exact alone x y u v old old' same
  refine ⟨alone',?_,?_,?_,?_,?_,?_,?_⟩ <;> simp only [conns,opened,next,usurped]
  · intro j u works
    rcases origin _ u works with ⟨is,old⟩ | ⟨-,-,old⟩
    · cases is
      rw [before,Option.some.injEq] at old
      exact old ▸ ⟨inside,device⟩
    · exact born j u old
  · intro x u j works conn
    rcases origin x u works with ⟨-,old⟩ | ⟨-,-,old⟩
    · exact located a u j old conn
    · exact located x u j old conn
  · exact unused
  · intro j isOpen
    obtain ⟨y,u,works,conn⟩ := carried j isOpen
    obtain ⟨x,works'⟩ := image y u works
    exact ⟨x,u,works',conn⟩
  · intro d j present
    obtain ⟨y,works⟩ := stored d j present
    exact image y _ works
  · intro x d j works isOpen
    have closing' : (∃ k, s.disconnects k = .closing j) → ∃ k, s'.disconnects k = .closing j :=
      fun ⟨k,is⟩ => ⟨k,closing k j is⟩
    rcases origin x _ works with ⟨-,old⟩ | ⟨-,-,old⟩
    · exact (held a d j old isOpen).imp_right closing'
    · exact (held x d j old isOpen).imp_right closing'
  · exact kept

theorem Valid.take (stored : s.conns id = some c) (idle : s.disconnects k = .idle)
    (works : work s' = work s) (conns : ∀ d, s'.conns d = if d = id then none else s.conns d)
    (disconnects : ∀ j, s'.disconnects j = if j = k then .closing c else s.disconnects j) (next : s'.next = s.next)
    (usurped : s'.usurped = s.usurped) (opened : s'.opened = s.opened) : Valid s' := by
  obtain ⟨alone,born,located,unused,carried,kept,held,unusurped⟩ := valid
  refine ⟨?_,?_,?_,?_,?_,?_,?_,?_⟩ <;> simp only [works,conns,opened,next,disconnects,usurped]
  · exact alone
  · exact born
  · exact located
  · exact unused
  · exact carried
  · grind
  · grind
  · exact unusurped

theorem Valid.shut (c : Nat) (works : work s' = work s) (conns : s'.conns = s.conns)
    (closing : ∀ j c', c' ≠ c → s.disconnects j = .closing c' → s'.disconnects j = .closing c') (next : s'.next = s.next)
    (usurped : s'.usurped = s.usurped)
    (opened : ∀ j, s'.opened j = if j = c then ⟨(s.opened c).device,false⟩ else s.opened j) : Valid s' := by
  obtain ⟨alone,born,located,unused,carried,stored,held,kept⟩ := valid
  refine ⟨?_,?_,?_,?_,?_,?_,?_,?_⟩ <;> simp only [works,conns,opened,next,usurped]
  · exact alone
  · grind
  · grind
  · grind
  · grind
  · exact stored
  · grind
  · exact kept

/-- The goroutine of a connection finds that it has ended. It deletes its own connection or
    nothing, since it is the only agent of the device. -/
theorem Valid.drain (before : work s (.goroutine c) = some (.holding id c))
    (shut : (s.opened c).isOpen = false) (changed : Changed s s' (.goroutine c) (some (.early id)))
    (conns : ∀ d, s'.conns d = if d = id then none else s.conns d) (next : s'.next = s.next)
    (disconnects : s'.disconnects = s.disconnects) (opened : s'.opened = s.opened)
    (usurped : s'.usurped = (s.usurped || ((s.conns id).isSome && s.conns id ≠ some c))) : Valid s' := by
  have mine : ∀ c', s.conns id = some c' → c' = c := by
    intro c' stored
    obtain ⟨b,holds⟩ := valid.stored id c' stored
    obtain rfl := valid.alone b (.goroutine c) _ _ holds before rfl
    rw [holds] at before
    cases before
    rfl
  have unshared : ∀ b d c', b ≠ .goroutine c → work s b = some (.holding d c') → d ≠ id := by
    rintro b d c' other works rfl
    exact other (valid.alone b _ _ _ works before rfl)
  have continues : Continues s (.goroutine c) (some (.early id)) := by rintro v ⟨⟩; exact .inl ⟨_,before,rfl⟩
  have alone := changed.alone valid continues
  have born := changed.born valid continues (Nat.le_of_eq next.symm) fun j _ => by rw [opened]
  obtain ⟨-,-,located,unused,carried,stored,held,kept⟩ := valid
  obtain ⟨self,others⟩ := changed
  refine ⟨alone,born,?_,?_,?_,?_,?_,?_⟩ <;> simp only [conns,opened,next,disconnects,usurped]
  · grind
  · exact unused
  · grind
  · grind
  · intro b d c' works isOpen
    have other : b ≠ .goroutine c := by
      rintro rfl
      rw [self] at works
      cases works
    rw [others b other] at works
    rw [if_neg (unshared b d c' other works)]
    exact held b d c' works isOpen
  · rw [kept,Bool.false_or]
    cases present : s.conns id with
    | none => rfl
    | some c' => simp [mine c' present]

theorem Valid.closeAll (empty : ∀ id, s.conns id = none) (works : work s' = work s)
    (conns : s'.conns = fun _ => none) (next : s'.next = s.next) (disconnects : s'.disconnects = s.disconnects)
    (opened : ∀ c, s'.opened c = if s.conns (s.opened c).device = some c then ⟨(s.opened c).device,false⟩ else s.opened c)
    (usurped : s'.usurped = s.usurped) : Valid s' := by
  have same : s'.opened = s.opened := by funext c; rw [opened,if_neg (by simp [empty])]
  have cleared : s'.conns = s.conns := conns.trans (funext fun id => (empty id).symm)
  exact valid.same ⟨cleared,same,next,fun _ _ is => disconnects ▸ is,usurped⟩ fun b => by rw [works]

end

/-! ### The steps -/

theorem changed_connect {t : System} (k : Nat) (call : Connect) (base : work t = work s) :
    Changed s (t.setConnect k call) (.connect k) (Connect.work call) where
  self := by simp
  others b other := by simp [other,base]

theorem changed_phase {t : System} (c : Nat) (phase : Phase) (base : work t = work s)
    (id : (t.goroutines c).id = (s.goroutines c).id) :
    Changed s (t.setPhase c phase) (.goroutine c) (Phase.work (s.goroutines c).id c phase) where
  self := by simp [id]
  others b other := by simp [other,base]

theorem continues_none (s : System) (a : Agent) : Continues s a none := nofun

theorem continues_early (before : work s a = some (.early id)) : Continues s a (some (.early id)) := by
  rintro v ⟨⟩
  exact .inl ⟨_,before,rfl⟩

theorem connect_device {call : Connect} {u : Work} (works : Connect.work call = some u) :
    call.device = some u.device := by
  cases call <;> cases works <;> rfl

theorem phase_device {phase : Phase} {u : Work} (works : Phase.work id c phase = some u) :
    phase.alive = true ∧ u.device = id := by
  cases phase <;> cases works <;> exact ⟨rfl,rfl⟩

theorem work_tryAgain (id : String) (c : Nat) (maxReconnects : Int) (attempt : Nat) :
    Phase.work id c (tryAgain maxReconnects attempt) = some (.early id) ∨
      Phase.work id c (tryAgain maxReconnects attempt) = none := by
  unfold tryAgain
  split
  · exact .inl rfl
  · exact .inr rfl

theorem Valid.idle_phase (valid : Valid s) (phase : Phase)
    (before : work s (.goroutine c) = some (.early (s.goroutines c).id))
    (after : Phase.work (s.goroutines c).id c phase = some (.early (s.goroutines c).id) ∨
      Phase.work (s.goroutines c).id c phase = none) : Valid (s.setPhase c phase) := by
  refine valid.idle ⟨rfl,rfl,rfl,fun _ _ is => is,rfl⟩ (changed_phase c phase rfl rfl) ?_ ?_ ?_
  · rcases after with is | is <;> rw [is]
    · exact continues_early before
    · exact continues_none s _
  · intro u works
    rw [before] at works
    cases works
    rfl
  · intro v works
    rcases after with is | is <;> rw [is] at works <;> cases works
    rfl

variable {maxReconnects : Int}

section
variable (valid : Valid s)
include valid

theorem connectCall_valid
    (serial : Serial s (.connectCall k id)) (moved : s.connectCall k id = some s') : Valid s' := by
  unfold System.connectCall at moved
  split at moved
  · rename_i idle present empty
    cases moved
    obtain ⟨calls,goroutines,-⟩ := serial (by rw [present]; nofun) empty
    have nobody : ∀ b u, work s b = some u → u.device ≠ id := by
      intro b u works same
      cases b with
      | connect j => exact calls j (same ▸ connect_device works)
      | goroutine c => exact goroutines c (phase_device works).1 ((phase_device works).2.symm.trans same)
    refine valid.idle ⟨rfl,rfl,rfl,fun _ _ is => is,rfl⟩ (changed_connect k _ rfl) ?_ ?_ ?_
    · rintro v ⟨⟩
      exact .inr ⟨⟨k,rfl⟩,nobody⟩
    · simp [work,idle]
    · rintro v ⟨⟩
      rfl
  · rename_i idle _
    cases moved
    exact valid.idle ⟨rfl,rfl,rfl,fun _ _ is => is,rfl⟩ (changed_connect k _ rfl) (continues_none s _)
      (by simp [work,idle]) nofun
  · cases moved

variable {ok : Bool}

theorem connectOpen_valid (moved : s.connectOpen k ok = some s') : Valid s' := by
  unfold System.connectOpen at moved
  split at moved
  · rename_i id checked
    have before : work s (.connect k) = some (.early id) := by simp [work,checked]
    cases ok <;> cases moved
    · exact valid.idle ⟨rfl,rfl,rfl,fun _ _ is => is,rfl⟩ (changed_connect k _ rfl) (continues_none s _)
        (by intro u works; rw [before] at works; cases works; rfl) nofun
    · exact valid.open before (changed_connect k _ (work_add s id)) rfl rfl rfl rfl fun _ => rfl
  · cases moved

theorem connectStart_valid (moved : s.connectStart k ok = some s') : Valid s' := by
  unfold System.connectStart at moved
  split at moved
  · rename_i id c opened
    cases moved
    refine valid.same ⟨rfl,rfl,rfl,fun _ _ is => is,rfl⟩ fun b => ?_
    rw [work_setConnect]
    split
    · rename_i is
      rw [is]
      cases ok <;> simp [work,opened]
    · rfl
  · cases moved

theorem connectFail_valid (moved : s.connectFail k = some s') : Valid s' := by
  unfold System.connectFail at moved
  split at moved
  · rename_i id c failing
    cases moved
    exact valid.drop (show work s (.connect k) = some (.flying id c) by simp [work,failing])
      (changed_connect k _ (work_shut s c)) nofun rfl rfl rfl rfl fun _ => rfl
  · cases moved

theorem connectStore_valid (moved : s.connectStore k = some s') : Valid s' := by
  unfold System.connectStore at moved
  split at moved
  · rename_i id c started
    cases moved
    exact valid.store (show work s (.connect k) = some (.flying id c) by simp [work,started])
      (changed_connect k _ (by simp)) (fun _ => rfl) rfl rfl rfl rfl
  · cases moved

theorem connectSpawn_valid (moved : s.connectSpawn k = some s') : Valid s' := by
  unfold System.connectSpawn at moved
  split at moved
  · rename_i id c stored
    cases moved
    refine valid.spawn ⟨rfl,rfl,rfl,fun _ _ is => is,rfl⟩ (show work s (.connect k) = some (.holding id c) by
      simp [work,stored]) ?_ ?_ ?_
    · simp
    · simp
    · intro x first second
      simp [first,second]
  · cases moved

theorem disconnectCall_valid (moved : s.disconnectCall k id = some s') : Valid s' := by
  unfold System.disconnectCall at moved
  split at moved
  · rename_i c idle stored
    cases moved
    split
    · exact valid.take stored idle (by simp) (fun _ => rfl) (fun _ => rfl) rfl rfl rfl
    · exact valid.take stored idle (by simp) (fun _ => rfl) (fun _ => rfl) rfl rfl rfl
  · rename_i idle empty
    cases moved
    refine valid.same ⟨rfl,rfl,rfl,fun j c closing => ?_,rfl⟩ fun b => by rw [work_setDisconnect]
    have other : j ≠ k := by
      rintro rfl
      rw [idle] at closing
      cases closing
    exact (if_neg other).trans closing
  · cases moved

theorem disconnectClose_valid (moved : s.disconnectClose k = some s') : Valid s' := by
  unfold System.disconnectClose at moved
  split at moved
  · rename_i c closing
    cases moved
    refine valid.shut c (by simp) rfl ?_ rfl rfl fun _ => rfl
    intro j c' differs is
    have other : j ≠ k := by
      rintro rfl
      rw [closing] at is
      cases is
      exact differs rfl
    exact (if_neg other).trans is
  · cases moved

theorem drained_valid (moved : s.drained c = some s') : Valid s' := by
  unfold System.drained at moved
  split at moved
  · rename_i guard
    cases moved
    obtain ⟨forwarding,shut⟩ := guard
    have before : work s (.goroutine c) = some (.holding (s.goroutines c).id c) := by simp [work,forwarding]
    have changed := changed_phase c .removed (work_setConn s (s.goroutines c).id none) rfl
    exact valid.drain before shut ⟨changed.self,changed.others⟩ (fun _ => rfl) rfl rfl rfl rfl
  · cases moved

theorem decide_valid (moved : s.decide maxReconnects c = some s') : Valid s' := by
  unfold System.decide at moved
  split at moved
  · rename_i removed
    cases moved
    refine valid.idle_phase _ (by simp [work,removed]) ?_
    split
    · exact .inr rfl
    · exact work_tryAgain ..
  · cases moved

theorem giveUp_valid (moved : s.giveUp c = some s') : Valid s' := by
  unfold System.giveUp at moved
  split at moved
  · rename_i attempt waiting
    cases moved
    exact valid.idle_phase _ (by simp [work,waiting]) (.inr rfl)
  · cases moved

theorem timer_valid (moved : s.timer c = some s') : Valid s' := by
  unfold System.timer at moved
  split at moved
  · rename_i attempt waiting
    cases moved
    refine valid.idle_phase _ (by simp [work,waiting]) ?_
    split
    · exact .inl rfl
    · exact .inr rfl
  · cases moved

theorem reopen_valid (moved : s.reopen maxReconnects c ok = some s') : Valid s' := by
  unfold System.reopen at moved
  split at moved
  · rename_i attempt opening
    have before : work s (.goroutine c) = some (.early (s.goroutines c).id) := by simp [work,opening]
    cases ok <;> cases moved
    · exact valid.idle_phase _ before (work_tryAgain ..)
    · exact valid.open before (changed_phase c _ (work_add s _) rfl) rfl rfl rfl rfl fun _ => rfl
  · cases moved

theorem restart_valid (moved : s.restart c ok = some s') : Valid s' := by
  unfold System.restart at moved
  split at moved
  · rename_i c' attempt opened
    cases moved
    refine valid.same ⟨rfl,rfl,rfl,fun _ _ is => is,rfl⟩ fun b => ?_
    rw [work_setPhase]
    split
    · rename_i is
      rw [is]
      cases ok <;> simp [work,opened]
    · rfl
  · cases moved

theorem refail_valid (moved : s.refail maxReconnects c = some s') : Valid s' := by
  unfold System.refail at moved
  split at moved
  · rename_i c' attempt failing
    cases moved
    have before : work s (.goroutine c) = some (.flying (s.goroutines c).id c') := by simp [work,failing]
    refine valid.drop before (changed_phase c _ (work_shut s c') rfl) ?_ rfl rfl rfl rfl fun _ => rfl
    intro v works
    rcases work_tryAgain (s.goroutines c).id c maxReconnects (attempt+1) with is | is <;> rw [is] at works <;> cases works
    rfl
  · cases moved

theorem restore_valid (moved : s.restore c = some s') : Valid s' := by
  unfold System.restore at moved
  split at moved
  · rename_i c' started
    cases moved
    have before : work s (.goroutine c) = some (.flying (s.goroutines c).id c') := by simp [work,started]
    split
    · exact valid.store before (changed_phase c _ (work_setConn s _ _) rfl) (fun _ => rfl) rfl rfl rfl rfl
    · refine valid.same ⟨rfl,rfl,rfl,fun _ _ is => is,rfl⟩ (fun b => ?_)
      rw [work_setPhase]
      split
      · rename_i is
        rw [is,before]
        rfl
      · rfl
  · cases moved

theorem refuse_valid (moved : s.refuse c = some s') : Valid s' := by
  unfold System.refuse at moved
  split at moved
  · rename_i c' refused
    cases moved
    have before : work s (.goroutine c) = some (.flying (s.goroutines c).id c') := by simp [work,refused]
    exact valid.drop before (changed_phase c _ (work_shut s c') rfl) nofun rfl rfl rfl rfl fun _ => rfl
  · cases moved

theorem respawn_valid (moved : s.respawn c = some s') : Valid s' := by
  unfold System.respawn at moved
  split at moved
  · rename_i c' stored
    cases moved
    refine valid.spawn ⟨rfl,rfl,rfl,fun _ _ is => is,rfl⟩
      (show work s (.goroutine c) = some (.holding (s.goroutines c).id c') by simp [work,stored]) ?_ ?_ ?_
    · simp
    · simp_all
    · intro x first second
      simp [first,second]
  · cases moved

theorem step_valid (a : Action) (serial : Serial s a) (moved : step maxReconnects s a = some s') : Valid s' := by
  cases a with
  | refresh id =>
    cases moved
    split
    · exact valid.same ⟨rfl,rfl,rfl,fun _ _ is => is,rfl⟩ fun b => by rw [work_setDevice]
    · exact valid
  | connectCall k id => exact connectCall_valid valid serial moved
  | connectOpen k ok => exact connectOpen_valid valid moved
  | connectStart k ok => exact connectStart_valid valid moved
  | connectFail k => exact connectFail_valid valid moved
  | connectStore k => exact connectStore_valid valid moved
  | connectSpawn k => exact connectSpawn_valid valid moved
  | disconnectCall k id => exact disconnectCall_valid valid moved
  | disconnectClose k => exact disconnectClose_valid valid moved
  | closeCall =>
    simp only [step,guarded] at moved
    obtain ⟨-,rfl⟩ := moved
    exact valid.same ⟨rfl,rfl,rfl,fun _ _ is => is,rfl⟩ fun b => by cases b <;> rfl
  | closeAll =>
    simp only [step,System.closeAll,guarded] at moved
    obtain ⟨-,rfl⟩ := moved
    exact valid.closeAll serial.1 (by funext b; cases b <;> rfl) rfl rfl rfl (fun _ => rfl) rfl
  | lose c =>
    simp only [step,guarded] at moved
    obtain ⟨-,rfl⟩ := moved
    exact valid.shut c (work_shut s c) rfl (fun _ _ _ => id) rfl rfl fun _ => rfl
  | drained c => exact drained_valid valid moved
  | decide c => exact decide_valid valid moved
  | giveUp c => exact giveUp_valid valid moved
  | timer c => exact timer_valid valid moved
  | reopen c ok => exact reopen_valid valid moved
  | restart c ok => exact restart_valid valid moved
  | refail c => exact refail_valid valid moved
  | restore c => exact restore_valid valid moved
  | refuse c => exact refuse_valid valid moved
  | respawn c => exact respawn_valid valid moved

end

/-! ### After Close -/

/-- Once `Close` has returned, no call is at work, the map is empty, and the goroutines that are left end. -/
structure Finished (s : System) : Prop where
  empty : s.close = .returned → ∀ id, s.conns id = none
  quiet : s.close = .returned → ∀ k, (s.connects k).device = none
  ending : s.close = .returned → ∀ c, (s.goroutines c).phase.alive = true →
    s.devices (s.goroutines c).id = some true ∧ ((s.goroutines c).phase = .forwarding ∨ (s.goroutines c).phase = .removed)
  unopened : s.late = false

theorem init_finished : Finished init := ⟨nofun,nofun,nofun,rfl⟩

theorem finished_of_running (running : s.close ≠ .returned) (unopened : s.late = false) : Finished s :=
  ⟨fun returned => absurd returned running,fun returned => absurd returned running,
    fun returned => absurd returned running,unopened⟩

/-- A step of a manager whose `Close` has not returned. Only an `Open` could set `late`. -/
theorem step_running (running : s.close ≠ .returned) (unopened : s.late = false) {a : Action}
    (other : a ≠ .closeAll) (moved : step maxReconnects s a = some s') : Finished s' := by
  have added : (s.late || decide (s.close = .returned)) = false := by simp [unopened,running]
  have kept : s'.close ≠ .returned ∧ s'.late = false := by
    cases a <;> simp only [step,System.connectCall,System.connectOpen,System.connectStart,System.connectFail,
      System.connectStore,System.connectSpawn,System.disconnectCall,System.disconnectClose,System.drained,
      System.decide,System.giveUp,System.timer,System.reopen,System.restart,System.refail,System.restore,
      System.refuse,System.respawn] at moved
    case closeAll => exact absurd rfl other
    all_goals
      split at moved <;> cases moved <;> (try split) <;>
        first | exact ⟨running,unopened⟩ | exact ⟨running,added⟩ | exact ⟨nofun,unopened⟩
  exact finished_of_running kept.1 kept.2

theorem Finished.setPhase (finished : Finished s) (c : Nat) (phase : Phase)
    (before : (s.goroutines c).phase.alive = true) (after : s.close = .returned → phase.alive = true → phase = .removed) :
    Finished (s.setPhase c phase) := by
  obtain ⟨empty,quiet,ending,unopened⟩ := finished
  refine ⟨empty,quiet,fun returned j alive => ?_,unopened⟩
  simp only [System.setPhase] at alive ⊢
  by_cases same : j = c
  · simp only [if_pos same] at alive ⊢
    exact ⟨(ending returned c before).1,.inr (after returned alive)⟩
  · simp only [if_neg same] at alive ⊢
    exact ending returned j alive

section
variable (finished : Finished s) (returned : s.close = .returned)
include finished returned

theorem Finished.calls_stuck (k : Nat) :
    (∀ ok, s.connectOpen k ok = none) ∧ (∀ ok, s.connectStart k ok = none) ∧ s.connectFail k = none ∧
      s.connectStore k = none ∧ s.connectSpawn k = none := by
  have quiet := finished.quiet returned k
  unfold System.connectOpen System.connectStart System.connectFail System.connectStore System.connectSpawn
  cases call : s.connects k <;> simp_all [Connect.device]

theorem Finished.reconnects_stuck (c : Nat) :
    s.giveUp c = none ∧ s.timer c = none ∧ (∀ limit ok, s.reopen limit c ok = none) ∧
      (∀ ok, s.restart c ok = none) ∧ (∀ limit, s.refail limit c = none) ∧ s.restore c = none ∧
      s.refuse c = none ∧ s.respawn c = none := by
  have ending := finished.ending returned c
  unfold System.giveUp System.timer System.reopen System.restart System.refail System.restore System.refuse
    System.respawn
  cases phase : (s.goroutines c).phase <;> simp_all [Phase.alive]

theorem returned_finished (a : Action)
    (serial : Serial s a) (moved : step maxReconnects s a = some s') : Finished s' := by
  have calls := finished.calls_stuck returned
  have reconnects := finished.reconnects_stuck returned
  cases a with
  | refresh id =>
    cases moved
    split
    · rename_i missing
      refine { finished with ending := fun _ c alive => ?_ }
      have known := finished.ending returned c alive
      have other : (s.goroutines c).id ≠ id := by
        intro same
        rw [same,missing] at known
        cases known.1
      exact ⟨(if_neg other).trans known.1,known.2⟩
    · exact finished
  | connectCall k id =>
    simp only [step,System.connectCall] at moved
    split at moved
    · rename_i present empty
      exact absurd returned (serial (by rw [present]; nofun) empty).2.2
    · cases moved
      refine { finished with quiet := fun _ j => ?_ }
      simp only [System.setConnect]
      split
      · rfl
      · exact finished.quiet returned j
    · cases moved
  | disconnectCall k id =>
    simp only [step,System.disconnectCall] at moved
    split at moved <;> cases moved
    · rename_i stored
      rw [finished.empty returned id] at stored
      cases stored
    · exact { finished with }
  | disconnectClose k =>
    simp only [step,System.disconnectClose] at moved
    split at moved <;> cases moved
    exact { finished with }
  | closeCall | closeAll => simp [step,System.closeAll,returned] at moved
  | lose c =>
    simp only [step,guarded] at moved
    obtain ⟨-,rfl⟩ := moved
    exact { finished with }
  | drained c =>
    simp only [step,System.drained,guarded] at moved
    obtain ⟨⟨forwarding,-⟩,rfl⟩ := moved
    have removed := finished.setPhase c .removed (by rw [forwarding]; rfl) fun _ _ => rfl
    refine { removed with empty := fun _ id => ?_ }
    simp only [System.setPhase,System.setConn]
    split
    · rfl
    · exact finished.empty returned id
  | decide c =>
    simp only [step,System.decide] at moved
    split at moved <;> cases moved
    rename_i removed
    have alive : (s.goroutines c).phase.alive = true := by rw [removed]; rfl
    refine finished.setPhase c _ alive fun _ still => ?_
    rw [if_pos (finished.ending returned c alive).1] at still
    cases still
  | _ => simp [step,calls,reconnects] at moved

end

theorem step_finished (finished : Finished s) (a : Action) (serial : Serial s a)
    (moved : step maxReconnects s a = some s') : Finished s' := by
  by_cases returned : s.close = .returned
  · exact returned_finished finished returned a serial moved
  · by_cases closes : a = .closeAll
    · subst closes
      simp only [step,System.closeAll,guarded] at moved
      obtain ⟨-,rfl⟩ := moved
      exact ⟨fun _ _ => rfl,fun _ => serial.2.1,fun _ => serial.2.2,finished.unopened⟩
    · exact step_running returned finished.unopened closes moved

/-! ### Ownership -/

theorem landed_connect {call : Connect} {u : Work} (works : Connect.work call = some u) (landed : call.flying = false)
    (id : String) (c : Nat) : u ≠ .flying id c := by
  rintro rfl
  cases call <;> cases works <;> cases landed

theorem landed_phase {d : String} {j : Nat} {phase : Phase} {u : Work} (works : Phase.work d j phase = some u)
    (landed : phase.flying = false) (id : String) (c : Nat) : u ≠ .flying id c := by
  rintro rfl
  cases phase <;> cases works <;> cases landed

theorem Valid.holding (valid : Valid s) (landed : Landed s) (isOpen : (s.opened c).isOpen = true) :
    ∃ a, work s a = some (.holding (s.opened c).device c) := by
  obtain ⟨a,u,works,conn⟩ := valid.carried c isOpen
  have device := (valid.located a u c works conn).2
  have grounded : ∀ id c, u ≠ .flying id c := by
    cases a with
    | connect k => exact landed_connect works (landed.1 k)
    | goroutine j => exact landed_phase works (landed.2 j)
  refine ⟨a,works.trans ?_⟩
  cases u with
  | early id => cases conn
  | flying id c' => exact absurd rfl (grounded id c')
  | holding id c' =>
    cases conn
    rw [device]
    rfl

theorem Finished.landed (finished : Finished s) (returned : s.close = .returned) : Landed s := by
  constructor
  · intro k
    have quiet := finished.quiet returned k
    cases call : s.connects k <;> rw [call] at quiet <;> first | rfl | cases quiet
  · intro c
    by_cases alive : (s.goroutines c).phase.alive = true
    · rcases (finished.ending returned c alive).2 with is | is <;> rw [is] <;> rfl
    · cases phase : (s.goroutines c).phase <;> rw [phase] at alive <;> first | rfl | exact absurd rfl alive

theorem Valid.owned (valid : Valid s) (finished : Finished s) (calm : ∀ k c, s.disconnects k ≠ .closing c) :
    Owned maxReconnects s := by
  have stored : Landed s → ∀ c, (s.opened c).isOpen = true → s.conns (s.opened c).device = some c := by
    intro landed c isOpen
    obtain ⟨a,works⟩ := valid.holding landed isOpen
    rcases valid.held a _ c works isOpen with stored | ⟨k,closing⟩
    · exact stored
    · exact absurd closing (calm k c)
  refine ⟨fun landed c c' isOpen isOpen' same => ?_,stored,valid.kept,finished.unopened,fun returned _ c => ?_⟩
  · have first := stored landed c isOpen
    rw [same,stored landed c' isOpen'] at first
    exact (Option.some.inj first).symm
  · refine Bool.eq_false_iff.mpr fun isOpen => ?_
    have present := stored (finished.landed returned) c isOpen
    rw [finished.empty returned] at present
    cases present

/-- If the calls and goroutines of each device follow one after the other, and `Close` comes after the user has
    disconnected what was connected, connections are owned at every point that is not inside a `Disconnect`. -/
theorem serial_owned {s : System} (reached : Reachable (step maxReconnects) Serial init s)
    (calm : ∀ k c, s.disconnects k ≠ .closing c) : Owned maxReconnects s := by
  have valid := reached.invariant init_valid fun _ a _ valid serial moved => step_valid valid a serial moved
  have finished := reached.invariant init_finished (fun _ a _ finished serial moved =>
    step_finished finished a serial moved)
  exact valid.owned finished calm

open Action

/-- A device is connected, disconnected, and then the manager is closed. -/
theorem serial_owned_closed : ∃ s, Reachable (step 0) Serial init s ∧ s.next = 1 ∧ s.close = .returned ∧ Owned 0 s := by
  have known : Reachable (step 0) Serial init _ := Reachable.start.next (refresh "d") trivial rfl
  have checked := known.next (connectCall 0 "d") (fun _ _ => ⟨fun _ => nofun,fun _ => nofun,nofun⟩) rfl
  have opened := checked.next (connectOpen 0 true) trivial rfl
  have stored := (opened.next (connectStart 0 true) trivial rfl).next (connectStore 0) trivial rfl
  have gone := ((stored.next (connectSpawn 0) trivial rfl).next (disconnectCall 0 "d") trivial rfl).next
    (disconnectClose 0) trivial rfl
  have ended := ((gone.next (drained 0) trivial rfl).next (decide 0) trivial rfl).next closeCall
    trivial rfl
  have reached := ended.next closeAll ⟨fun id => ?_,fun k => ?_,fun c => ?_⟩ rfl
  · exact ⟨_,reached,rfl,rfl,serial_owned reached fun k c => by cases k <;> nofun⟩
  · by_cases is : id = "d"
    · exact if_pos is
    · exact (if_neg is).trans ((if_neg is).trans (if_neg is))
  · cases k <;> rfl
  · cases c <;> nofun

/-- Two calls of `Connect` check the map before either has stored its connection. -/
def twoConnects : List Action :=
  [.refresh "d",.connectCall 0 "d",.connectCall 1 "d",.connectOpen 0 true,.connectStart 0 true,.connectStore 0,
    .connectSpawn 0,.connectOpen 1 true,.connectStart 1 true,.connectStore 1,.connectSpawn 1]

/-- A `Connect` after a `Disconnect`, before the old goroutine has seen the end of its events. -/
def oldGoroutine : List Action :=
  [.refresh "d",.connectCall 0 "d",.connectOpen 0 true,.connectStart 0 true,.connectStore 0,.connectSpawn 0,
    .disconnectCall 0 "d",.disconnectClose 0,.connectCall 1 "d",.connectOpen 1 true,.connectStart 1 true,.connectStore 1,
    .connectSpawn 1,.drained 0]

def afterClose : List Action :=
  [.refresh "d",.connectCall 0 "d",.connectOpen 0 true,.connectStart 0 true,.connectStore 0,.connectSpawn 0,.closeCall,
    .closeAll,.drained 0,.decide 0,.timer 0,.reopen 0 true,.restart 0 true,.restore 0,.respawn 0]

theorem connections_unowned :
    (∃ s, Reachable (step 0) free init s ∧ (s.opened 0).isOpen ∧ (s.opened 1).isOpen ∧ s.conns "d" = some 1 ∧
      ¬ Owned 0 s) ∧
    (∃ s, Reachable (step 0) free init s ∧ (s.opened 1).isOpen ∧ s.conns "d" = none ∧ s.usurped ∧ ¬ Owned 0 s) ∧
    (∃ s, Reachable (step 0) free init s ∧ s.close = .returned ∧ s.late ∧ (s.opened 1).isOpen ∧ ¬ Owned 0 s) := by
  refine ⟨⟨_,exec_reachable twoConnects .start rfl,rfl,rfl,rfl,fun owned => ?_⟩,
    ⟨_,exec_reachable oldGoroutine .start rfl,rfl,rfl,rfl,fun owned => ?_⟩,
    ⟨_,exec_reachable afterClose .start rfl,rfl,rfl,rfl,fun owned => ?_⟩⟩
  · have stored := owned.stored ⟨fun k => match k with | 0 | 1 | _+2 => rfl,fun c => match c with | 0 | 1 | _+2 => rfl⟩
    exact absurd (stored 0 rfl) nofun
  · exact absurd owned.kept nofun
  · exact absurd owned.unopened nofun

end Mcpkit.DeviceOwnership
