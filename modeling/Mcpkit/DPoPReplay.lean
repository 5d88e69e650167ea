import Mathlib.Data.Finset.Max
import Mcpkit.DPoPModel
import Mcpkit.Transitions

/-!
Replay of DPoP proofs. A proof that was accepted is refused as long as its `jti` is in the cache.
-/
namespace Mcpkit.DPoPReplay
open GoMaps Transitions DPoPModel List Finmap Option
variable {F : Type}

/-! ### Runs of the validator -/

/-- A call of `ValidateProof`: its two readings of the clock, and the entry that `evictOldest`
    takes if it has the choice. -/
structure Action where
  call : Call
  now : Int
  again : Int
  victim : String

/-- The validator and the last reading of the clock; `accepted` is history. -/
structure System where
  validator : DPoPValidator
  now : Int
  accepted : List Call

def new (cfg : DPoPConfig) (now : Int) : System := ⟨newDPoPValidator cfg,now,[]⟩

variable (lib : Library F) (s : System)

def step (a : Action) : Option System :=
  if s.now ≤ a.now ∧ a.now ≤ a.again then
    (s.validator.validateProof lib a.call a.now a.again a.victim).map (fun (result,v) =>
      { validator := v, now := a.again, accepted := match result with
        | .ok _ => s.accepted ++ [a.call]
        | .error _ => s.accepted })
  else none

def Once : Prop := (s.accepted.map Call.proof).Nodup

def issue (proof : String) : Option (String × Int) :=
  match verifyProof lib proof with
  | .ok (_,payload) =>
    match payload.lookup "iat" with
    | some (.number seconds) => some (stringField payload "jti",lib.unix seconds)
    | _ => none
  | .error _ => none

/-- The call comes to the cache, which drops the entry of a proof that was accepted: of the
    proof of this call, or of another one that has not expired and has another `jti`. -/
def Forgets (a : Action) : Prop :=
  ∃ jti entries, checkProof lib s.validator.config a.call a.now = .ok jti ∧
    s.validator.jtiCache.left jti a.again a.victim = some entries ∧
    ∃ earlier ∈ s.accepted, ∃ own iat, issue lib earlier.proof = some (own,iat) ∧
      own ∈ s.validator.jtiCache.entries ∧ own ∉ entries ∧
      (earlier.proof = a.call.proof ∨ own ≠ jti ∧ ¬ s.validator.config.expired iat a.again)

/-! ### What a call looks at -/

variable {now : Int} {jti : String} {call : Call}

theorem checkProof_ok {lib : Library F} {config : DPoPConfig} (checked : checkProof lib config call now = .ok jti) :
    ∃ iat, issue lib call.proof = some (jti,iat) ∧ ¬ config.expired iat now ∧
      ∀ later, now ≤ later → ¬ config.expired iat later → checkProof lib config call later = .ok jti := by
  obtain ⟨key,payload,seconds,verified,rfl,found,read,timed,bound⟩ := checkProof_cases checked
  obtain ⟨fresh,past⟩ := checkTime_ok.mp timed
  refine ⟨lib.unix seconds,?_,fresh,fun later after alive => ?_⟩
  · simp only [issue,verified,found]
  · have still : ¬ config.maxClockSkew < sub (lib.unix seconds) later := by
      have less : sub (lib.unix seconds) later ≤ sub (lib.unix seconds) now := by
        unfold sub
        omega
      omega
    have timed' := checkTime_ok.mpr ⟨alive,still⟩
    simp only [checkProof,verified,read,timed',bound,bind,Except.bind,pure,Except.pure]

theorem expired_mono {config : DPoPConfig} {iat later : Int} (after : now ≤ later) (old : config.expired iat now) :
    config.expired iat later := Int.lt_of_lt_of_le old (sub_mono after iat)

/-! ### What the cache drops -/

variable {c : JTICache} {key : String} {entries : GoMap Int}

open JTICache

theorem mem_of_mem_cleanup (member : key ∈ c.cleanup entries now) : key ∈ entries := by
  obtain ⟨ts,found⟩ := mem_iff.mp member
  rw [cleanup,lookup_keep] at found
  obtain ⟨there,-⟩ := filter_eq_some_iff.mp found
  exact mem_of_lookup_eq_some there

theorem mem_of_mem_tidied (member : key ∈ c.tidied now) : key ∈ c.entries := by
  unfold tidied at member
  split at member
  · exact mem_of_mem_cleanup member
  · exact member

variable {victim : String}

theorem mem_of_mem_room (room : c.room now victim = some entries) (member : key ∈ entries) : key ∈ c.tidied now := by
  unfold JTICache.room at room
  split at room
  · cases room
    exact member
  · split at room
    · cases room
      exact mem_of_mem_cleanup member
    · split at room
      · cases room
        exact mem_of_mem_cleanup (mem_erase.mp member).2
      · cases room

theorem mem_of_mem_left (left : c.left jti now victim = some entries) (member : key ∈ entries) :
    key ∈ c.tidied now := by
  unfold JTICache.left at left
  split at left
  · cases left
    exact member
  · exact mem_of_mem_room left member

theorem exists_oldest (some_ : entries.keys.card ≠ 0) : ∃ key, Oldest entries key := by
  obtain ⟨key,member,least⟩ := Finset.exists_min_image entries.keys (fun key => (entries.lookup key).getD 0)
    (Finset.card_ne_zero.mp some_)
  obtain ⟨ts,found⟩ := mem_iff.mp (mem_keys.mp member)
  refine ⟨key,ts,found,fun other there ts' found' => ?_⟩
  have bound := least other there
  rw [found,show entries.lookup other = some ts' from found'] at bound
  exact bound

theorem exists_room (capacity : 0 < c.maxSize) (now : Int) : ∃ victim entries, c.room now victim = some entries := by
  unfold room
  by_cases small : (c.tidied now).keys.card < c.maxSize
  · exact ⟨"",_,if_pos small⟩
  · by_cases cleaned : (c.cleanup (c.tidied now) now).keys.card < c.maxSize
    · refine ⟨"",c.cleanup (c.tidied now) now,?_⟩
      rw [if_neg small,if_pos cleaned]
    · have some_ : (c.cleanup (c.tidied now) now).keys.card ≠ 0 := by omega
      obtain ⟨victim,oldest⟩ := exists_oldest some_
      refine ⟨victim,(c.cleanup (c.tidied now) now).erase victim,?_⟩
      rw [if_neg small,if_neg cleaned,if_pos oldest]

/-! ### What every run keeps -/

theorem check_cases {c' : JTICache} {fresh : Bool} (checked : c.check jti now victim = some (fresh,c')) :
    ∃ entries, c.left jti now victim = some entries ∧ c'.maxSize = c.maxSize ∧
      (fresh = false ∧ jti ∈ entries ∧ c'.entries = entries ∨
        fresh = true ∧ jti ∉ c.tidied now ∧ c'.entries = entries.insert jti now) := by
  obtain ⟨entries,left,same⟩ := map_eq_some_iff.mp checked
  refine ⟨entries,left,?_⟩
  by_cases seen : jti ∈ c.tidied now
  · rw [if_pos seen] at same
    rw [JTICache.left,if_pos seen] at left
    cases left
    cases same
    exact ⟨rfl,.inl ⟨rfl,seen,rfl⟩⟩
  · rw [if_neg seen] at same
    cases same
    exact ⟨rfl,.inr ⟨rfl,seen,rfl⟩⟩

/-- The call is refused before it comes to the cache, or as a replay, or it is accepted. -/
inductive Stepped (lib : Library F) (s : System) (a : Action) : System → Prop
  | refused {s' : System} (err : DPoPError) (unchecked : checkProof lib s.validator.config a.call a.now = .error err)
      (validator : s'.validator = s.validator) (now : s'.now = a.again)
      (accepted : s'.accepted = s.accepted) : Stepped lib s a s'
  | replayed {s' : System} (jti : String) (entries : GoMap Int)
      (checked : checkProof lib s.validator.config a.call a.now = .ok jti)
      (left : s.validator.jtiCache.left jti a.again a.victim = some entries) (seen : jti ∈ entries)
      (config : s'.validator.config = s.validator.config)
      (maxSize : s'.validator.jtiCache.maxSize = s.validator.jtiCache.maxSize)
      (cache : s'.validator.jtiCache.entries = entries) (now : s'.now = a.again)
      (accepted : s'.accepted = s.accepted) : Stepped lib s a s'
  | passed {s' : System} (jti : String) (entries : GoMap Int)
      (checked : checkProof lib s.validator.config a.call a.now = .ok jti)
      (left : s.validator.jtiCache.left jti a.again a.victim = some entries)
      (unseen : jti ∉ s.validator.jtiCache.tidied a.again)
      (config : s'.validator.config = s.validator.config)
      (maxSize : s'.validator.jtiCache.maxSize = s.validator.jtiCache.maxSize)
      (cache : s'.validator.jtiCache.entries = entries.insert jti a.again) (now : s'.now = a.again)
      (accepted : s'.accepted = s.accepted ++ [a.call]) : Stepped lib s a s'

theorem step_cases {lib : Library F} {s s' : System} {a : Action} (stepped : step lib s a = some s') :
    s.now ≤ a.now ∧ a.now ≤ a.again ∧ Stepped lib s a s' := by
  unfold step at stepped
  split at stepped
  · rename_i ordered
    refine ⟨ordered.1,ordered.2,?_⟩
    obtain ⟨⟨result,v⟩,validated,rfl⟩ := map_eq_some_iff.mp stepped
    unfold DPoPValidator.validateProof at validated
    split at validated
    · rename_i err unchecked
      cases validated
      exact .refused err unchecked rfl rfl rfl
    · rename_i jti checked
      obtain ⟨⟨fresh,cache⟩,met,same⟩ := map_eq_some_iff.mp validated
      obtain ⟨entries,left,maxSize,⟨rfl,seen,kept⟩ | ⟨rfl,unseen,kept⟩⟩ := check_cases met
      · cases same
        exact .replayed jti entries checked left seen rfl maxSize kept rfl rfl
      · cases same
        exact .passed jti entries checked left unseen rfl maxSize kept rfl rfl
  · cases stepped

/-- The proof was accepted, and while it has not expired its `jti` is in the cache. -/
structure Covered (lib : Library F) (s : System) (call : Call) (jti : String) (iat : Int) : Prop where
  issued : issue lib call.proof = some (jti,iat)
  recorded : ¬ s.validator.config.expired iat s.now → jti ∈ s.validator.jtiCache.entries
  repeats : ∀ later, s.now ≤ later → ¬ s.validator.config.expired iat later →
    checkProof lib s.validator.config call later = .ok jti

structure Kept (lib : Library F) (s : System) : Prop where
  once : Once s
  covered : ∀ call ∈ s.accepted, ∃ jti iat, Covered lib s call jti iat
  capacity : 0 < s.validator.jtiCache.maxSize

theorem kept_new (lib : Library F) (cfg : DPoPConfig) (now : Int) : Kept lib (new cfg now) :=
  ⟨nodup_nil,fun _ member => absurd member not_mem_nil,Nat.zero_lt_succ 9999⟩

variable {lib} {s s' : System} {a : Action}

/-- The entry of an earlier proof is still there, unless the call has recorded its `jti`. -/
theorem Covered.left {own : String} {iat : Int} (covered : Covered lib s call own iat)
    (member : call ∈ s.accepted) (remembers : ¬ Forgets lib s a)
    (checked : checkProof lib s.validator.config a.call a.now = .ok jti)
    (left : s.validator.jtiCache.left jti a.again a.victim = some entries) (ordered : s.now ≤ a.again)
    (alive : ¬ s.validator.config.expired iat a.again) : own ∈ entries ∨ own = jti := by
  have before : ¬ s.validator.config.expired iat s.now := fun old => alive (expired_mono ordered old)
  by_contra gone
  rw [not_or] at gone
  exact remembers ⟨jti,entries,checked,left,call,member,own,iat,covered.issued,covered.recorded before,gone.1,
    .inr ⟨gone.2,alive⟩⟩

theorem Covered.later {own : String} {iat : Int} (covered : Covered lib s call own iat) (ordered : s.now ≤ s'.now)
    (config : s'.validator.config = s.validator.config)
    (recorded : ¬ s.validator.config.expired iat s'.now → own ∈ s'.validator.jtiCache.entries) :
    Covered lib s' call own iat := by
  refine ⟨covered.issued,?_,fun later after alive => ?_⟩
  · rw [config]
    exact recorded
  · rw [config] at alive ⊢
    exact covered.repeats later (Int.le_trans ordered after) alive

theorem Kept.step (kept : Kept lib s) (remembers : ¬ Forgets lib s a) (stepped : step lib s a = some s') : Kept lib s' := by
  obtain ⟨ordered,after,cases⟩ := step_cases stepped
  have forward : s.now ≤ a.again := Int.le_trans ordered after
  cases cases with
  | refused err unchecked validator now accepted =>
    refine ⟨?_,fun call member => ?_,?_⟩
    · rw [Once,accepted]
      exact kept.once
    · rw [accepted] at member
      obtain ⟨jti,iat,covered⟩ := kept.covered call member
      refine ⟨jti,iat,covered.later (now ▸ forward) (by rw [validator]) fun alive => ?_⟩
      rw [validator]
      exact covered.recorded fun old => alive (expired_mono (now ▸ forward) old)
    · rw [validator]
      exact kept.capacity
  | replayed jti entries checked left seen config maxSize cache now accepted =>
    refine ⟨?_,fun call member => ?_,?_⟩
    · rw [Once,accepted]
      exact kept.once
    · rw [accepted] at member
      obtain ⟨own,iat,covered⟩ := kept.covered call member
      refine ⟨own,iat,covered.later (now ▸ forward) config fun alive => ?_⟩
      rw [cache]
      rw [now] at alive
      rcases covered.left member remembers checked left forward alive with there | rfl
      · exact there
      · exact seen
    · rw [maxSize]
      exact kept.capacity
  | passed jti entries checked left unseen config maxSize cache now accepted =>
    obtain ⟨iat,issued,fresh,again⟩ := checkProof_ok checked
    refine ⟨?_,fun call member => ?_,?_⟩
    · rw [Once,accepted,map_append,nodup_append]
      refine ⟨kept.once,nodup_singleton _,?_⟩
      rintro proof earlier _ new rfl
      cases mem_singleton.mp new
      -- the proof was accepted before: its entry has just been dropped
      obtain ⟨call,member,same⟩ := mem_map.mp earlier
      obtain ⟨own,iat',covered⟩ := kept.covered call member
      have issued' := covered.issued
      rw [same,issued] at issued'
      cases issued'
      have there := covered.recorded fun old => fresh (expired_mono ordered old)
      exact remembers ⟨jti,entries,checked,left,call,member,jti,iat,covered.issued,there,
        fun kept => unseen (mem_of_mem_left left kept),.inl same⟩
    · rw [accepted] at member
      rcases mem_append.mp member with old | new
      · obtain ⟨own,iat',covered⟩ := kept.covered call old
        refine ⟨own,iat',covered.later (now ▸ forward) config fun alive => ?_⟩
        rw [cache]
        rw [now] at alive
        rcases covered.left old remembers checked left forward alive with there | rfl
        · exact mem_insert.mpr (.inr there)
        · exact mem_insert.mpr (.inl rfl)
      · cases mem_singleton.mp new
        refine ⟨jti,iat,issued,fun _ => ?_,fun later reached alive => ?_⟩
        · rw [cache]
          exact mem_insert.mpr (.inl rfl)
        · rw [config] at alive ⊢
          rw [now] at reached
          exact again later (Int.le_trans after reached) alive
    · rw [maxSize]
      exact kept.capacity

/-! ### After an entry is dropped -/

theorem accepted_again (capacity : 0 < s.validator.jtiCache.maxSize)
    (checked : checkProof lib s.validator.config call s.now = .ok jti) (absent : jti ∉ s.validator.jtiCache.entries) :
    ∃ s', Reachable (DPoPReplay.step lib) free s s' ∧ s'.accepted = s.accepted ++ [call] := by
  obtain ⟨victim,entries,room⟩ := exists_room capacity s.now
  have unseen : jti ∉ s.validator.jtiCache.tidied s.now := fun member => absent (mem_of_mem_tidied member)
  have met : s.validator.jtiCache.check jti s.now victim = some (true,{ s.validator.jtiCache with
      entries := entries.insert jti s.now, checkCtr := s.validator.jtiCache.checkCtr+1 }) := by
    simp only [check,left,unseen,if_false,room,map_some]
  have moved : DPoPReplay.step lib s ⟨call,s.now,s.now,victim⟩ = some
      { validator := { s.validator with jtiCache := { s.validator.jtiCache with
          entries := entries.insert jti s.now, checkCtr := s.validator.jtiCache.checkCtr+1 } }
        now := s.now, accepted := s.accepted ++ [call] } := by
    simp only [DPoPReplay.step,DPoPValidator.validateProof,checked,met,map_some,Int.le_refl,and_self,if_true]
  exact ⟨_,.next _ .start trivial moved,rfl⟩

theorem Kept.breaks (kept : Kept lib s) (forgets : Forgets lib s a) (stepped : DPoPReplay.step lib s a = some s') :
    ∃ s'', Reachable (DPoPReplay.step lib) free s' s'' ∧ ¬ Once s'' := by
  obtain ⟨ordered,after,cases⟩ := step_cases stepped
  have forward : s.now ≤ a.again := Int.le_trans ordered after
  obtain ⟨jti,entries,checked,left,earlier,member,own,iat,issued,there,gone,cause⟩ := forgets
  have twice {t : System} {call : Call} (before : earlier ∈ t.accepted) (same : earlier.proof = call.proof) :
      ¬ (((t.accepted ++ [call]).map Call.proof).Nodup) := by
    rw [map_append,nodup_append]
    rintro ⟨-,-,apart⟩
    exact apart _ (mem_map_of_mem before) _ (mem_singleton_self _) same
  obtain ⟨jti',iat',covered⟩ := kept.covered earlier member
  obtain ⟨rfl,rfl⟩ : jti' = own ∧ iat' = iat := by
    cases covered.issued.symm.trans issued
    exact ⟨rfl,rfl⟩
  rcases cause with same | ⟨apart,alive⟩
  · obtain ⟨_,issued',-⟩ := checkProof_ok checked
    rw [← same,issued] at issued'
    cases issued'
    cases cases with
    | refused err unchecked validator now accepted => cases checked.symm.trans unchecked
    | replayed jti2 entries2 checked2 left2 seen config maxSize cache now accepted =>
      cases checked.symm.trans checked2
      cases left.symm.trans left2
      exact absurd seen gone
    | passed jti2 entries2 checked2 left2 unseen config maxSize cache now accepted =>
      refine ⟨s',.start,?_⟩
      rw [Once,accepted]
      exact twice member same
  · have repeats {t : System} (config : t.validator.config = s.validator.config)
        (maxSize : t.validator.jtiCache.maxSize = s.validator.jtiCache.maxSize) (now : t.now = a.again)
        (lost : jti' ∉ t.validator.jtiCache.entries) (before : earlier ∈ t.accepted) :
        ∃ s'', Reachable (DPoPReplay.step lib) free t s'' ∧ ¬ Once s'' := by
      have checked' : checkProof lib t.validator.config earlier t.now = .ok jti' := by
        rw [config,now]
        exact covered.repeats a.again forward alive
      obtain ⟨s'',reached,accepted⟩ := accepted_again (maxSize ▸ kept.capacity) checked' lost
      refine ⟨s'',reached,?_⟩
      rw [Once,accepted]
      exact twice before rfl
    cases cases with
    | refused err unchecked validator now accepted => cases checked.symm.trans unchecked
    | replayed jti2 entries2 checked2 left2 seen config maxSize cache now accepted =>
      cases checked.symm.trans checked2
      cases left.symm.trans left2
      exact repeats config maxSize now (cache ▸ gone) (accepted ▸ member)
    | passed jti2 entries2 checked2 left2 unseen config maxSize cache now accepted =>
      cases checked.symm.trans checked2
      cases left.symm.trans left2
      refine repeats config maxSize now ?_ (accepted ▸ mem_append_left _ member)
      rw [cache,mem_insert]
      exact not_or.mpr ⟨apart,gone⟩

/-- Texts of one letter for the parts of a proof; numbers are seconds. -/
def sampleLibrary : Library Int where
  base64 text := .ok (text.toList.map fun c => c.toNat.toUInt8)
  unmarshal
    | [104] => .ok [("typ",.string "dpop+jwt"),("alg",.string "ES256"),("jwk",.object
        [("kty",.string "EC"),("crv",.string "P-256"),("x",.string "x"),("y",.string "y")])]
    | [112] => .ok [("jti",.string "p"),("htm",.string "GET"),("htu",.string "u"),("iat",.number 60)]
    | _ => .ok [("jti",.string "q"),("htm",.string "GET"),("htu",.string "u"),("iat",.number 0)]
  notAnObject := ""
  unix seconds := seconds*1000000000
  equalFold a b := a == b
  parseURL text := .ok ("https",text,"")
  quote text := text
  computeATH text := text
  verify _ _ := true

def sampleConfig : DPoPConfig := ⟨60000000000,120000000000,false⟩

def sampleCall : Call := ⟨"h.p.s","","GET","u"⟩

def otherCall : Call := ⟨"h.q.s","","GET","u"⟩

def sampleFirst : System := (step sampleLibrary (new sampleConfig 0) ⟨sampleCall,0,0,""⟩).getD (new sampleConfig 0)

/-- The proof, another one ninety-eight times, and after four minutes the proof again. -/
def sampleActions : List Action :=
  ⟨sampleCall,0,0,""⟩ :: (List.replicate 98 ⟨otherCall,0,0,""⟩ ++ [⟨sampleCall,240000000000,240000000000,""⟩])

def sampleTwice : System := (exec (step sampleLibrary) free (new sampleConfig 0) sampleActions).getD (new sampleConfig 0)

structure Fits (c : JTICache) : Prop where
  size : c.maxSize = 10000
  entries : c.entries.keys.card ≤ 10000

theorem card_left (fits : Fits c) (left : c.left jti now victim = some entries) : entries.keys.card ≤ 10000 ∧
    (jti ∉ c.tidied now → entries.keys.card < 10000) := by
  have tidied : (c.tidied now).keys.card ≤ 10000 :=
    (Finset.card_le_card fun _ member => mem_keys.mpr (mem_of_mem_tidied (mem_keys.mp member))).trans fits.entries
  have cleaned : (c.cleanup (c.tidied now) now).keys.card ≤ 10000 :=
    (Finset.card_le_card fun _ member => mem_keys.mpr (mem_of_mem_cleanup (mem_keys.mp member))).trans tidied
  unfold JTICache.left room at left
  rw [fits.size] at left
  split at left
  · cases left
    exact ⟨tidied,fun unseen => absurd ‹_› unseen⟩
  · suffices less : entries.keys.card < 10000 from ⟨less.le,fun _ => less⟩
    split at left
    · cases left
      assumption
    · split at left
      · cases left
        assumption
      · split at left
        · rename_i oldest
          cases left
          obtain ⟨ts,found,-⟩ := oldest
          have member := mem_keys.mpr (mem_of_lookup_eq_some found)
          rw [keys_erase]
          exact (Finset.card_erase_lt_of_mem member).trans_le cleaned
        · cases left

theorem fits_step (fits : Fits s.validator.jtiCache) (moved : step lib s a = some s') : Fits s'.validator.jtiCache := by
  obtain ⟨-,-,stepped⟩ := step_cases moved
  cases stepped with
  | refused err unchecked validator => exact validator ▸ fits
  | replayed jti entries checked left seen config maxSize cache =>
    exact ⟨maxSize.trans fits.size,cache ▸ (card_left fits left).1⟩
  | passed jti entries checked left unseen config maxSize cache =>
    refine ⟨maxSize.trans fits.size,?_⟩
    have room := (card_left fits left).2 unseen
    have more : (entries.insert jti a.again).keys ⊆ insert jti entries.keys := by
      intro key member
      simpa [Finmap.mem_keys,Finmap.mem_insert] using Finmap.mem_keys.mp member
    rw [cache]
    exact (Finset.card_le_card more).trans ((Finset.card_insert_le _ _).trans room)

/-- However many proofs come, the cache has no more than its entries. -/
theorem always_fits (lib : Library F) (cfg : DPoPConfig) (now : Int) (actions : List Action) :
    Always (step lib) (Fits ·.validator.jtiCache) (new cfg now) actions :=
  always_of_preserved fits_step actions ⟨rfl,Nat.zero_le _⟩

end Mcpkit.DPoPReplay
