import Mcpkit.MultiDetect
import Mcpkit.Selection

/-!
Which adapter the multi-protocol router takes for a request, and what body that adapter reads.
-/
namespace Mcpkit.MultiRouting
open MultiDetect List

/-! ### Bodies -/

inductive ReadEnd
  | eof
  | failed (message : String)

/-- A body: each read returns one chunk, or as much of it as the buffer holds. -/
structure Reader where
  chunks : List Bytes
  ending : ReadEnd

/-- io.ReadAtLeast with a minimum of one byte: empty reads are repeated. -/
def readAtLeastOne (n : Nat) (ending : ReadEnd) : List Bytes → Except ReadEnd Bytes × List Bytes
  | [] => (.error ending,[])
  | [] :: rest => readAtLeastOne n ending rest
  | (c :: chunk) :: rest => (.ok ((c :: chunk).take n),(c :: chunk).drop n :: rest)

def Reader.readAll (r : Reader) : Except String Bytes :=
  match r.ending with
  | .eof => .ok r.chunks.flatten
  | .failed message => .error message

def maxBodyPeek : Nat := 512

/-- The peek and the body put together again. The end of the body is not an error here. -/
def peekRequestBody (req : Request) (n : Nat) : Option Reader → Except String (Bytes × Option Reader)
  | none => .ok ([],none)
  | some body =>
    if req.contentLength = 0 then .ok ([],some body)
    else
      match readAtLeastOne n body.ending body.chunks with
      | (.ok peek,rest) => .ok (peek,some ⟨peek :: rest,body.ending⟩)
      | (.error .eof,rest) => .ok ([],some ⟨[] :: rest,body.ending⟩)
      | (.error (.failed message),_) => .error ("peek body: " ++ message)

structure Delivers (body : Reader) (bytes : Bytes) : Prop where
  whole : body.ending = .eof
  nonempty : ∀ chunk ∈ body.chunks, chunk ≠ []
  joined : body.chunks.flatten = bytes

/-! ### The router -/

/-- The adapters by their protocol; the order of the list means nothing. -/
structure Router where
  adapters : List Adapter
  single : (adapters.map (·.protocol)).Nodup

namespace Router

def newRouter : Router := ⟨[],List.nodup_nil⟩

def register (router : Router) (adapter : Adapter) : Router where
  adapters := adapter :: router.adapters.filter (·.protocol ≠ adapter.protocol)
  single := by
    rw [List.map_cons,List.nodup_cons]
    constructor
    · intro member
      obtain ⟨other,there,same⟩ := List.mem_map.mp member
      simpa [same] using (List.mem_filter.mp there).2
    · exact router.single.sublist (List.filter_sublist.map _)

def lookup (router : Router) (protocol : Protocol) : Option Adapter :=
  router.adapters.find? (·.protocol = protocol)

end Router

def confidence (req : Request) (bodyPeek : Bytes) (a : Adapter) : Option Confidence :=
  if (a.detect req bodyPeek).1 then some (a.detect req bodyPeek).2 else none

variable (router : Router)

def settled (detected : Protocol) (detectedConf : Confidence) : Option Adapter :=
  if confidenceHigh ≤ detectedConf then router.lookup detected else none

def resolveAdapter (order : List Adapter) (req : Request) (bodyPeek : Bytes) (detected : Protocol)
    (detectedConf : Confidence) : Option Adapter :=
  match settled router detected detectedConf with
  | some a => some a
  | none =>
    match Selection.scan (confidence req bodyPeek) (-1) order with
    | (some best,bestConf) =>
      if confidenceMedium ≤ bestConf then some best
      else if detected ≠ protocolUnknown then router.lookup detected
      else none
    | (none,_) => if detected ≠ protocolUnknown then router.lookup detected else none

/-- What becomes of a request: an adapter that decodes it, or a reply at once. -/
inductive Dispatch
  | unreadable (message : String)
  | unsupported (detected : Protocol)
  | decode (adapter : Adapter) (body : Option Reader)

/-- ServeHTTP up to the call of Decode. -/
def serveHTTP (order : List Adapter) (req : Request) (body : Option Reader) : Dispatch :=
  match peekRequestBody req maxBodyPeek body with
  | .error message => .unreadable message
  | .ok (bodyPeek,buffered) =>
    match resolveAdapter router order req bodyPeek (detectProtocol req bodyPeek).1 (detectProtocol req bodyPeek).2 with
    | none => .unsupported (detectProtocol req bodyPeek).1
    | some adapter => .decode adapter buffered

def Dispatch.adapter : Dispatch → Option Adapter
  | .decode adapter _ => some adapter
  | _ => none

/-! ### What the router can see of a body -/

inductive Peek (req : Request) (bytes : Bytes) : Bytes → Prop
  | unread (empty : req.contentLength = 0 ∨ bytes = []) : Peek req bytes []
  | read {peek : Bytes} (declared : req.contentLength ≠ 0) (start : peek <+: bytes) (some : peek ≠ [])
      (short : peek.length ≤ maxBodyPeek) : Peek req bytes peek

variable {bytes peek : Bytes} {order : List Adapter} {body : Reader}

theorem peekRequestBody_delivered (req : Request) (delivers : Delivers body bytes) :
    ∃ peek buffered, peekRequestBody req maxBodyPeek (some body) = .ok (peek,some buffered) ∧ Peek req bytes peek ∧
      buffered.readAll = .ok bytes := by
  obtain ⟨chunks,ending⟩ := body
  obtain ⟨rfl,nonempty,rfl⟩ := delivers
  by_cases declared : req.contentLength = 0
  · exact ⟨[],⟨chunks,.eof⟩,by simp [peekRequestBody,declared],.unread (.inl declared),rfl⟩
  · cases chunks with
    | nil => exact ⟨[],⟨[[]],.eof⟩,by simp [peekRequestBody,declared,readAtLeastOne],.unread (.inr rfl),rfl⟩
    | cons chunk rest =>
      cases chunk with
      | nil => exact absurd rfl (nonempty [] mem_cons_self)
      | cons c chunk =>
        refine ⟨(c :: chunk).take maxBodyPeek,⟨(c :: chunk).take maxBodyPeek :: (c :: chunk).drop maxBodyPeek :: rest,.eof⟩,
          by simp only [peekRequestBody,declared,if_false,readAtLeastOne],.read declared ?_ ?_ (length_take_le _ _),?_⟩
        · exact (List.take_prefix _ _).trans (prefix_append _ _)
        · simp [maxBodyPeek]
        · simp only [Reader.readAll,flatten_cons,← append_assoc,take_append_drop]

def splitAfter (peek rest : Bytes) : Reader := ⟨peek :: (if rest = [] then [] else [rest]),.eof⟩

theorem splitAfter_delivers (some : peek ≠ []) (rest : Bytes) : Delivers (splitAfter peek rest) (peek ++ rest) := by
  refine ⟨rfl,?_,?_⟩
  · by_cases done : rest = []
    · simp [splitAfter,done,some]
    · simp [splitAfter,done,some]
  · by_cases done : rest = []
    · simp [splitAfter,done]
    · simp [splitAfter,done]

theorem deliverable (bytes : Bytes) : ∃ body, Delivers body bytes := by
  by_cases none : bytes = []
  · exact ⟨⟨[],.eof⟩,rfl,by simp,none.symm⟩
  · exact ⟨splitAfter bytes [],by simpa using splitAfter_delivers none []⟩

variable {req : Request}

theorem Peek.delivered (possible : Peek req bytes peek) :
    ∃ body buffered, Delivers body bytes ∧ peekRequestBody req maxBodyPeek (some body) = .ok (peek,some buffered) := by
  cases possible with
  | unread empty =>
    by_cases none : bytes = []
    · subst none
      by_cases declared : req.contentLength = 0
      · exact ⟨⟨[],.eof⟩,⟨[],.eof⟩,⟨rfl,by simp,rfl⟩,by simp only [peekRequestBody,declared,if_true]⟩
      · exact ⟨⟨[],.eof⟩,⟨[[]],.eof⟩,⟨rfl,by simp,rfl⟩,by simp only [peekRequestBody,declared,if_false,readAtLeastOne]⟩
    · have declared : req.contentLength = 0 := empty.resolve_right none
      exact ⟨⟨[bytes],.eof⟩,⟨[bytes],.eof⟩,⟨rfl,by simpa using none,by simp⟩,by simp only [peekRequestBody,declared,if_true]⟩
  | read declared start some short =>
    obtain ⟨rest,rfl⟩ := start
    refine ⟨splitAfter peek rest,⟨peek :: peek.drop maxBodyPeek :: (if rest = [] then [] else [rest]),.eof⟩,
      splitAfter_delivers some rest,?_⟩
    obtain ⟨c,chunk,rfl⟩ := exists_cons_of_ne_nil some
    simp only [peekRequestBody,declared,if_false,splitAfter,readAtLeastOne,take_of_length_le short]

/-! ### What the router can take for a peek -/

def choose (router : Router) (order : List Adapter) (req : Request) (peek : Bytes) : Option Adapter :=
  resolveAdapter router order req peek (detectProtocol req peek).1 (detectProtocol req peek).2

def settledBy (router : Router) (req : Request) (peek : Bytes) : Option Adapter :=
  settled router (detectProtocol req peek).1 (detectProtocol req peek).2

/-- What is taken in some order of the map: the settled adapter, else one with the
    highest confidence if that is medium at least, else none. -/
inductive Candidate (router : Router) (req : Request) (peek : Bytes) : Option Adapter → Prop
  | settled {a : Adapter} (settles : settledBy router req peek = some a) : Candidate router req peek (some a)
  | strongest {a : Adapter} {conf : Confidence} (unsettled : settledBy router req peek = none)
      (registered : a ∈ router.adapters) (matched : confidence req peek a = some conf) (enough : confidenceMedium ≤ conf)
      (most : Selection.Bounded (confidence req peek) router.adapters conf) : Candidate router req peek (some a)
  | none (unsettled : settledBy router req peek = none)
      (weak : ∀ a ∈ router.adapters, ∀ conf, confidence req peek a = some conf → conf < confidenceMedium) :
      Candidate router req peek none

variable {router}

theorem last_resort_none (unsettled : settledBy router req peek = none) :
    (if (detectProtocol req peek).1 ≠ protocolUnknown then router.lookup (detectProtocol req peek).1 else none) = none := by
  by_cases known : (detectProtocol req peek).1 ≠ protocolUnknown
  · rw [settledBy,settled,if_pos (detectProtocol_high known)] at unsettled
    rw [if_pos known,unsettled]
  · exact if_neg known

theorem choose_settled {a : Adapter}
    (settles : settledBy router req peek = some a) (order : List Adapter) : choose router order req peek = some a := by
  unfold settledBy at settles
  simp only [choose,resolveAdapter,settles]

open Selection

theorem choose_unsettled (unsettled : settledBy router req peek = none)
    (order : List Adapter) : choose router order req peek =
      match scan (confidence req peek) (-1) order with
      | (some best,bestConf) => if confidenceMedium ≤ bestConf then some best else none | (none,_) => none := by
  have last := last_resort_none unsettled
  unfold settledBy at unsettled
  simp only [choose,resolveAdapter,unsettled,last]

theorem choose_candidate (ranges : order.Perm router.adapters) :
    Candidate router req peek (choose router order req peek) := by
  cases settles : settledBy router req peek with
  | some a =>
    rw [choose_settled settles]
    exact .settled settles
  | none =>
    rw [choose_unsettled settles]
    rcases scan_cases (confidence req peek) (-1) order with ⟨ends,bounded⟩ | ⟨a,member,conf,ends,matched,_,bounded⟩
    · rw [ends]
      refine .none settles fun a there conf matched => ?_
      exact lt_of_le_of_lt (bounded a (ranges.mem_iff.mpr there) conf matched) (by decide)
    · rw [ends]
      have most : Selection.Bounded (confidence req peek) router.adapters conf :=
        fun b there => bounded b (ranges.mem_iff.mpr there)
      by_cases enough : confidenceMedium ≤ conf
      · simp only [if_pos enough]
        exact .strongest settles (ranges.mem_iff.mp member) matched enough most
      · simp only [if_neg enough]
        exact .none settles fun b there conf' matched' => lt_of_le_of_lt (most b there conf' matched') (not_le.mp enough)

theorem Candidate.chosen {choice : Option Adapter} (candidate : Candidate router req peek choice) :
    ∃ order : List Adapter, order.Perm router.adapters ∧ choose router order req peek = choice := by
  cases candidate with
  | settled settles => exact ⟨router.adapters,List.Perm.refl _,choose_settled settles _⟩
  | @strongest a conf unsettled registered matched enough most =>
    obtain ⟨before,after,parts⟩ := append_of_mem registered
    have ranges : (a :: (before ++ after)).Perm router.adapters := by
      rw [parts]
      exact List.perm_middle.symm
    refine ⟨_,ranges,?_⟩
    have rest : Selection.Bounded (confidence req peek) (before ++ after) conf :=
      fun b there => most b (ranges.mem_iff.mp (mem_cons_of_mem _ there))
    rw [choose_unsettled unsettled,scan_cons matched (lt_of_lt_of_le (by decide) enough) rest]
    exact if_pos enough
  | none unsettled weak =>
    refine ⟨router.adapters,List.Perm.refl _,?_⟩
    rw [choose_unsettled unsettled]
    rcases scan_cases (confidence req peek) (-1) router.adapters with ⟨ends,_⟩ | ⟨a,member,conf,ends,matched,_⟩
    · rw [ends]
    · rw [ends]
      exact if_neg (not_le.mpr (weak a member conf matched))

/-! ### Routing and delivery -/

theorem serveHTTP_delivered {buffered : Reader}
    (peeked : peekRequestBody req maxBodyPeek (some body) = .ok (peek,some buffered)) :
    serveHTTP router order req (some body) = match choose router order req peek with
      | none => .unsupported (detectProtocol req peek).1 | some adapter => .decode adapter (some buffered) := by
  simp only [serveHTTP,peeked,choose]

theorem adapter_delivered {buffered : Reader}
    (peeked : peekRequestBody req maxBodyPeek (some body) = .ok (peek,some buffered)) :
    (serveHTTP router order req (some body)).adapter = choose router order req peek := by
  rw [serveHTTP_delivered peeked]
  cases choose router order req peek with
  | none | some adapter => rfl

/-- The adapter and the body it reads depend on the request alone. -/
def DeliveryFree (router : Router) (req : Request) (bytes : Bytes) : Prop :=
  ∀ body order, Delivers body bytes → order.Perm router.adapters →
    (∀ body' order', Delivers body' bytes → order'.Perm router.adapters →
      (serveHTTP router order' req (some body')).adapter = (serveHTTP router order req (some body)).adapter) ∧
    ∀ adapter buffered, serveHTTP router order req (some body) = .decode adapter buffered →
      ∃ reader, buffered = some reader ∧ reader.readAll = .ok bytes

/-- Every peek the body can give leaves the same single candidate. -/
def Unambiguous (router : Router) (req : Request) (bytes : Bytes) : Prop :=
  ∃ choice, ∀ peek, Peek req bytes peek → ∀ candidate, Candidate router req peek candidate → candidate = choice

theorem decoded_body (delivers : Delivers body bytes) {adapter : Adapter} {buffered : Option Reader}
    (decodes : serveHTTP router order req (some body) = .decode adapter buffered) :
    ∃ reader, buffered = some reader ∧ reader.readAll = .ok bytes := by
  obtain ⟨peek,reader,peeked,_,reads⟩ := peekRequestBody_delivered req delivers
  rw [serveHTTP_delivered peeked] at decodes
  cases chosen : choose router order req peek with
  | none => simp [chosen] at decodes
  | some a =>
    simp only [chosen,Dispatch.decode.injEq] at decodes
    exact ⟨reader,decodes.2.symm,reads⟩

theorem DeliveryFree.unambiguous (free : DeliveryFree router req bytes) : Unambiguous router req bytes := by
  obtain ⟨first,delivers⟩ := deliverable bytes
  refine ⟨(serveHTTP router router.adapters req (some first)).adapter,fun peek possible candidate can => ?_⟩
  obtain ⟨body,buffered,delivers',peeked⟩ := possible.delivered
  obtain ⟨order,ranges,chosen⟩ := can.chosen
  rw [← chosen,← adapter_delivered peeked]
  exact (free first router.adapters delivers (List.Perm.refl _)).1 body order delivers' ranges

theorem Unambiguous.free (one : Unambiguous router req bytes) : DeliveryFree router req bytes := by
  obtain ⟨choice,only⟩ := one
  have taken : ∀ body order, Delivers body bytes → order.Perm router.adapters →
      (serveHTTP router order req (some body)).adapter = choice := by
    intro body order delivers ranges
    obtain ⟨peek,buffered,peeked,possible,_⟩ := peekRequestBody_delivered req delivers
    rw [adapter_delivered peeked]
    exact only peek possible _ (choose_candidate ranges)
  intro body order delivers ranges
  refine ⟨fun body' order' delivers' ranges' => ?_,fun adapter buffered decodes => decoded_body delivers decodes⟩
  rw [taken body order delivers ranges,taken body' order' delivers' ranges']

/-- Routing is free of the delivery and of the map's order exactly when no two peeks
    and no two adapters of the same confidence compete. -/
theorem delivery_free_iff (router : Router) (req : Request) (bytes : Bytes) :
    DeliveryFree router req bytes ↔ Unambiguous router req bytes :=
  ⟨DeliveryFree.unambiguous,Unambiguous.free⟩

/-! ### The adapters of the package -/

def builtIn : Router := ((Router.newRouter.register openAIAdapter).register a2aAdapter).register mcpAdapter

def sampleRequest : Request := ⟨"POST","/",Finmap.singleton "Content-Type" ["application/json"],-1⟩

def sampleBody : Bytes := ascii "\x7b\"method\":\"ping\"\x7d"

def tied : Router :=
  (Router.newRouter.register ⟨"second",fun _ _ => (true,confidenceMedium)⟩).register
    ⟨"first",fun _ _ => (true,confidenceMedium)⟩

/-- When its first byte comes alone, the body goes to no adapter; and two adapters of the same confidence are
    taken as the map brings them. -/
theorem first_chunk_changes_route :
    ¬ DeliveryFree builtIn sampleRequest sampleBody ∧ ¬ DeliveryFree tied sampleRequest [] := by
  constructor
  · intro free
    have whole : Delivers (splitAfter sampleBody []) sampleBody := ⟨rfl,by decide,by decide⟩
    have split : Delivers (splitAfter (sampleBody.take 1) (sampleBody.drop 1)) sampleBody :=
      ⟨rfl,by decide,by decide⟩
    have same := (free _ builtIn.adapters whole (List.Perm.refl _)).1 _ builtIn.adapters split (List.Perm.refl _)
    have found : (serveHTTP builtIn builtIn.adapters sampleRequest (some (splitAfter sampleBody []))).adapter.map
        (·.protocol) = some protocolMCP := by decide
    have lost : (serveHTTP builtIn builtIn.adapters sampleRequest
        (some (splitAfter (sampleBody.take 1) (sampleBody.drop 1)))).adapter.map (·.protocol) = none := by decide
    rw [same,found] at lost
    cases lost
  · intro free
    have empty : Delivers ⟨[],.eof⟩ [] := ⟨rfl,by simp,rfl⟩
    have same := (free _ tied.adapters empty (List.Perm.refl _)).1 _ tied.adapters.reverse empty (reverse_perm _)
    have first : (serveHTTP tied tied.adapters sampleRequest (some ⟨[],.eof⟩)).adapter.map (·.protocol) = some "first" := by
      decide
    have second : (serveHTTP tied tied.adapters.reverse sampleRequest (some ⟨[],.eof⟩)).adapter.map (·.protocol) =
        some "second" := by decide
    rw [same,first] at second
    exact absurd second (by decide)

end Mcpkit.MultiRouting
