import Mcpkit.UrlText

/-!
The policy on resource URIs.
-/
namespace Mcpkit.URIPolicies
open UrlText

structure URIPolicy where
  allowedSchemes : List Text
  blockedHosts : List Text
  maxLength : Int
  allowDotDot : Bool

def URIPolicy.maxLen (policy : URIPolicy) : Int := if policy.maxLength = 0 then 4096 else policy.maxLength

def defaultURIPolicy : URIPolicy where
  allowedSchemes := ["http".toList,"https".toList,"file".toList]
  blockedHosts := ["169.254.169.254".toList,"localhost".toList,"127.0.0.1".toList,"[::1]".toList,"::1".toList,
    "0.0.0.0".toList]
  maxLength := 4096
  allowDotDot := false

inductive URIError where
  | tooLong (length maximum : Int)
  | nullByte
  | unparseable
  | scheme (scheme : Text) (allowed : List Text)
  | blocked (host : Text)
  | dotDot
  deriving DecidableEq

def unbracket (host : Text) : Text :=
  if host.head? = some '[' ∧ host.getLast? = some ']' then host.tail.dropLast else host

def splitHost (host : Text) : Text :=
  let port := (host.reverse.takeWhile (· ≠ ':')).reverse
  unbracket (if ':' ∈ host ∧ port.all Char.isDigit then host.take (host.length-port.length-1) else host)

def hostname (u : URL Text) : Text := splitHost (u.host.getD [])

section
variable (parseAuthority : Text → Option Text) (escape toLower : Text → Text)

/-- The paths that are checked: the decoded one, and the written one if it is not the usual encoding of the other. -/
def paths (u : URL Text) : List Text :=
  let path := (unescape false u.path).getD []
  [path,if escape path = u.path then [] else u.path]

def validateURI (raw : Text) (policy : URIPolicy) : Except URIError Text :=
  if raw.length > policy.maxLen then .error (.tooLong raw.length policy.maxLen)
  else if '\x00' ∈ raw then .error .nullByte
  else
    match parse parseAuthority raw with
    | none => .error .unparseable
    | some parsed =>
      if policy.allowedSchemes ≠ [] ∧ ¬ policy.allowedSchemes.any (fun s => toLower s = toLower parsed.scheme) then
        .error (.scheme parsed.scheme policy.allowedSchemes)
      else if policy.blockedHosts.any (fun blocked => toLower blocked = toLower (hostname parsed)) then
        .error (.blocked (hostname parsed))
      else if policy.allowDotDot = false ∧ (paths escape parsed).any (fun p => (p.splitOn '/').contains ['.','.']) then
        .error .dotDot
      else .ok raw

/-- The URI that is validated: the registered one when the request has none. -/
def requestURI (uri requested : Text) : Text := if requested = [] then uri else requested

def uriValidationMiddleware {C E : Type} (wrap : URIError → E) (policy : URIPolicy) (uri : Text)
    (next : Text → Except E C) (requested : Text) : Except E C :=
  match validateURI parseAuthority escape toLower (requestURI uri requested) policy with
  | .error err => .error (wrap err)
  | .ok _ => next requested

variable (policy : URIPolicy)

def Admits (uri requested : Text) : Prop :=
  ∀ next : Text → Except URIError Text,
    uriValidationMiddleware parseAuthority escape toLower id policy uri next requested = next requested

/-! ### What the policy is for -/

variable (u : URL Text)

/-- The host at the beginning of a URI without a slash there, without user and port. -/
def leadingHost : Text := splitHost ((cut '/' u.rootless).1.reverse.takeWhile (· ≠ '@')).reverse

def uriHost : Text := if u.rootless = [] then hostname u else leadingHost u

def SameHost (host host' : Text) : Prop := unbracket (toLower host) = unbracket (toLower host')

structure Covered : Prop where
  path : ['.','.'] ∉ ((unescape false u.path).getD []).splitOn '/'
  rootless : ['.','.'] ∉ u.rootless.splitOn '/'
  host : ∀ blocked ∈ policy.blockedHosts, ¬ SameHost toLower blocked (uriHost u)

instance (host host' : Text) : Decidable (SameHost toLower host host') := inferInstanceAs (Decidable (_ = _))

instance (policy : URIPolicy) (u : URL Text) : Decidable (Covered toLower policy u) :=
  decidable_of_iff ((((unescape false u.path).getD []).splitOn '/').all (· ≠ ['.','.']) ∧
      (u.rootless.splitOn '/').all (· ≠ ['.','.']) ∧ ∀ blocked ∈ policy.blockedHosts, ¬ SameHost toLower blocked (uriHost u)) (by
    simp only [List.all_eq_true,decide_eq_true_eq,ne_eq,List.forall_mem_ne']
    exact ⟨fun all => ⟨all.1,all.2.1,all.2.2⟩,fun all => ⟨all.path,all.rootless,all.host⟩⟩)

/-- What is not checked is harmless, and no entry has the host in other brackets. -/
structure Plain : Prop where
  rootless : ['.','.'] ∉ u.rootless.splitOn '/'
  leading : u.rootless ≠ [] → ∀ blocked ∈ policy.blockedHosts, ¬ SameHost toLower blocked (leadingHost u)
  brackets : u.rootless = [] → ∀ blocked ∈ policy.blockedHosts, SameHost toLower blocked (hostname u) →
    toLower blocked = toLower (hostname u)

end

section
variable {parseAuthority : Text → Option Text} {escape toLower : Text → Text} {policy : URIPolicy}

theorem admits_iff {uri requested : Text} : Admits parseAuthority escape toLower policy uri requested ↔
    ∃ raw, validateURI parseAuthority escape toLower (requestURI uri requested) policy = .ok raw := by
  unfold Admits uriValidationMiddleware
  cases validateURI parseAuthority escape toLower (requestURI uri requested) policy with
  | error err =>
    refine ⟨fun admits => ?_,nofun⟩
    cases admits (fun _ => .ok [])
  | ok raw => exact ⟨fun _ => ⟨raw,rfl⟩,fun _ _ => rfl⟩

theorem validateURI_ok (strict : policy.allowDotDot = false) {raw result : Text}
    (valid : validateURI parseAuthority escape toLower raw policy = .ok result) :
    ∃ u, parse parseAuthority raw = some u ∧ ['.','.'] ∉ ((unescape false u.path).getD []).splitOn '/' ∧
      ∀ blocked ∈ policy.blockedHosts, toLower blocked ≠ toLower (hostname u) := by
  simp only [validateURI] at valid
  split at valid
  · cases valid
  split at valid
  · cases valid
  split at valid
  · cases valid
  rename_i u parsed
  refine ⟨u,parsed,?_⟩
  split at valid
  · cases valid
  split at valid
  · cases valid
  rename_i unblocked
  split at valid
  · cases valid
  rename_i undotted
  simp only [strict,true_and,paths,List.any_cons,Bool.or_eq_true,not_or,List.contains_iff_mem] at undotted
  exact ⟨undotted.1,by simpa using unblocked⟩

end

def lower (t : Text) : Text := t.map Char.toLower

theorem pass_uncovered {policy : URIPolicy} {raw : Text} {u : URL Text} (some_ : raw ≠ [])
    (valid : validateURI some id lower raw policy = .ok raw) (parsed : parse some raw = some u)
    (uncovered : ¬ Covered lower policy u) :
    Admits some id lower policy [] raw ∧ ¬ ∃ u, parse some raw = some u ∧ Covered lower policy u := by
  refine ⟨admits_iff.mpr ⟨raw,?_⟩,?_⟩
  · rw [requestURI,if_neg some_,valid]
  · simpa [parsed] using uncovered

end Mcpkit.URIPolicies
