import Mathlib.Data.List.TakeWhile

/-!
Frames of the Grid protocol. A parse stops with the bytes that the next one needs, so it does not matter how a
stream is cut into chunks.
-/
namespace Mcpkit.GridFrames
open List

abbrev Bytes := List UInt8

def gridSTX : UInt8 := 0x02

def gridETX : UInt8 := 0x03

structure GridMessage where
  raw : Bytes
  payload : Bytes
  deriving DecidableEq

def gridEncodeFrame (luaCode : Bytes) : Bytes := gridSTX :: luaCode ++ [gridETX]

/-- Messages and remainder. `IndexByte` finds the byte that `dropWhile` stops at. -/
def gridParseFrames (data : Bytes) : List GridMessage × Bytes :=
  if _framed : gridSTX ∈ data then
    let rest := (data.dropWhile (· ≠ gridSTX)).tail
    if _ended : gridETX ∈ rest then
      let payload := rest.takeWhile (· ≠ gridETX)
      let (msgs,remainder) := gridParseFrames (rest.dropWhile (· ≠ gridETX)).tail
      (⟨gridSTX :: payload ++ [gridETX],payload⟩ :: msgs,remainder)
    else ([],gridSTX :: rest)
  else ([],[])
termination_by data.length
decreasing_by
  have outer := (dropWhile_suffix (l := data) (· ≠ gridSTX)).length_le
  have inner := (dropWhile_suffix (l := rest) (· ≠ gridETX)).length_le
  have some := length_pos_of_mem _ended
  simp only [rest,length_tail] at *
  omega

/-- The calls for the chunks of a stream, each of which begins with the remainder of the one before. -/
def parseChunks : Bytes → List Bytes → List GridMessage × Bytes
  | remainder,[] => ([],remainder)
  | remainder,chunk :: chunks =>
    let (msgs,remainder) := gridParseFrames (remainder ++ chunk)
    let (more,remainder) := parseChunks remainder chunks
    (msgs ++ more,remainder)

theorem parse_nil : gridParseFrames [] = ([],[]) := by
  rw [gridParseFrames]
  rfl

theorem parse_skip {b : UInt8} (other : b ≠ gridSTX) (bs : Bytes) : gridParseFrames (b :: bs) = gridParseFrames bs := by
  rw [gridParseFrames,gridParseFrames]
  simp [other,Ne.symm other]

theorem parse_open {rest : Bytes} (inside : gridETX ∉ rest) :
    gridParseFrames (gridSTX :: rest) = ([],gridSTX :: rest) := by
  rw [gridParseFrames]
  simp [inside]

def message (payload : Bytes) : GridMessage := ⟨gridEncodeFrame payload,payload⟩

theorem parse_frame {payload : Bytes} (inside : gridETX ∉ payload) (bs : Bytes) :
    gridParseFrames (gridSTX :: (payload ++ gridETX :: bs)) =
      (message payload :: (gridParseFrames bs).1,(gridParseFrames bs).2) := by
  have passed : ∀ b ∈ payload, (!decide (b = gridETX)) = true := by
    intro b member
    have other : b ≠ gridETX := by rintro rfl; exact inside member
    simpa using other
  rw [gridParseFrames]
  simp [takeWhile_append_of_pos passed,dropWhile_append_of_pos passed,message,gridEncodeFrame]

inductive Stream : Bytes → Prop
  | nil : Stream []
  | skip {b : UInt8} {bs : Bytes} (other : b ≠ gridSTX) (later : Stream bs) : Stream (b :: bs)
  | unfinished {rest : Bytes} (inside : gridETX ∉ rest) : Stream (gridSTX :: rest)
  | frame {payload bs : Bytes} (inside : gridETX ∉ payload) (later : Stream bs) :
    Stream (gridSTX :: (payload ++ gridETX :: bs))

theorem stream : ∀ data, Stream data
  | [] => .nil
  | b :: bs => by
    by_cases starts : b = gridSTX
    · subst starts
      by_cases ends : gridETX ∈ bs
      · obtain ⟨payload,later,rfl,inside⟩ := eq_append_cons_of_mem ends
        exact .frame inside (stream later)
      · exact .unfinished ends
    · exact .skip starts (stream bs)
termination_by data => data.length

/-- A parse may stop at any point, if the next one begins with the remainder. -/
theorem parse_append (data more : Bytes) : gridParseFrames (data ++ more) =
    ((gridParseFrames data).1 ++ (gridParseFrames ((gridParseFrames data).2 ++ more)).1,
      (gridParseFrames ((gridParseFrames data).2 ++ more)).2) := by
  induction stream data with
  | nil => rw [parse_nil]; rfl
  | skip other later ih => rw [cons_append,parse_skip other,parse_skip other,ih]
  | unfinished inside => rw [parse_open inside]; rfl
  | frame inside later ih =>
    rw [cons_append,append_assoc,cons_append,parse_frame inside,parse_frame inside,ih]
    rfl

theorem parse_remainder (data : Bytes) : gridParseFrames (gridParseFrames data).2 = ([],(gridParseFrames data).2) := by
  induction stream data with
  | nil => rw [parse_nil,parse_nil]
  | skip other later ih => rw [parse_skip other,ih]
  | unfinished inside => rw [parse_open inside,parse_open inside]
  | frame inside later ih => rw [parse_frame inside,ih]

theorem parseChunks_eq (chunks : List Bytes) : ∀ {left}, gridParseFrames left = ([],left) →
    parseChunks left chunks = gridParseFrames (left ++ chunks.flatten) := by
  induction chunks with
  | nil => intro left stopped; rw [flatten_nil,append_nil,stopped]; rfl
  | cons chunk chunks ih =>
    intro left stopped
    rw [parseChunks,flatten_cons,← append_assoc,parse_append (left ++ chunk)]
    simp only [ih (parse_remainder (left ++ chunk))]

structure Framed where
  noise : Bytes
  payload : Bytes

def Framed.bytes (f : Framed) : Bytes := f.noise ++ gridEncodeFrame f.payload

theorem parse_noise {noise : Bytes} (clean : gridSTX ∉ noise) (bs : Bytes) :
    gridParseFrames (noise ++ bs) = gridParseFrames bs := by
  induction noise with
  | nil => rfl
  | cons b noise ih =>
    rw [mem_cons,not_or] at clean
    rw [cons_append,parse_skip (Ne.symm clean.1),ih clean.2]

theorem parse_frames {frames : List Framed} (clean : ∀ f ∈ frames, gridSTX ∉ f.noise ∧ gridETX ∉ f.payload)
    {noise : Bytes} (outside : gridSTX ∉ noise) :
    gridParseFrames (frames.flatMap Framed.bytes ++ noise) = (frames.map (message ·.payload),[]) := by
  induction frames with
  | nil => simpa [parse_nil] using parse_noise outside []
  | cons f frames ih =>
    rw [forall_mem_cons] at clean
    have first := parse_frame clean.1.2 (frames.flatMap Framed.bytes ++ noise)
    rw [ih clean.2] at first
    rw [flatMap_cons,Framed.bytes,append_assoc,append_assoc,parse_noise clean.1.1,gridEncodeFrame]
    simpa using first

/-- However a stream is cut into chunks, the messages and the last remainder are those of one parse; and frames are
    parsed to their payloads. -/
theorem frames_parsed (chunks : List Bytes) (frames : List Framed) (noise : Bytes)
    (clean : ∀ f ∈ frames, gridSTX ∉ f.noise ∧ gridSTX ∉ f.payload ∧ gridETX ∉ f.payload) (outside : gridSTX ∉ noise) :
    parseChunks [] chunks = gridParseFrames chunks.flatten ∧
      gridParseFrames (frames.flatMap Framed.bytes ++ noise) = (frames.map (message ·.payload),[]) :=
  ⟨parseChunks_eq chunks (parse_nil),
    parse_frames (fun f member => ⟨(clean f member).1,(clean f member).2.2⟩) outside⟩

theorem frames_parsed_twice : gridParseFrames [7,gridSTX,65,gridETX,7,gridSTX,gridETX] = ([message [65],message []],[]) :=
  (frames_parsed [] [⟨[7],[65]⟩,⟨[7],[]⟩] [] (by decide) (by decide)).2

end Mcpkit.GridFrames
