import CrossHostOps.Config
import CrossHostOps.ShellUpload

/-!
The lists of `review_copy` of `oversight/review.rs`: patterns are matched against the text of the
remote path and of the source's name. Beside them, the file that a path names, and the one that an
upload into a directory writes.
-/

namespace CrossHostOps.CopyReview

open Text Config Filepath Oversight ShellUpload List

/-! ### The matcher -/

/-- `glob_match_inner`: a star takes any text, slashes included. -/
def globMatch : Str → Str → Bool
  | [], text => text = []
  | ch :: pattern, text =>
    if ch = '*' then text.tails.any (globMatch pattern)
    else text.head? = some ch && globMatch pattern text.tail

def segments (path : Str) : List Str := split '/' path

def pathMatches (pattern path : Str) : Bool :=
  globMatch pattern path ||
    -- the path itself, or something below it
    (pattern.isPrefixOf path && (path.drop pattern.length).head?.all (· = '/')) ||
    (segments path).any (· = pattern) ||
    (segments path).any (fun seg => '*' ∈ pattern && globMatch pattern seg)

def matchesAny (patterns : List Str) (remotePath sourceName : Str) : Bool :=
  patterns.any fun pattern => pathMatches pattern remotePath || pathMatches pattern sourceName

/-- What the lists decide; where they do not, the model is asked. -/
def listVerdict (cfg : ReviewCopyConfig) (remotePath sourceName : Str) : Option ReviewDecision :=
  if matchesAny cfg.blocklist remotePath sourceName then
    some ⟨.dangerous, .deny, "copy path matched blocklist pattern"⟩
  else if matchesAny cfg.allowlist remotePath sourceName then
    some ⟨.safe, cfg.policy.actionFor .safe, "copy path matched allowlist pattern"⟩
  else none

/-- `review_copy`, with what `call_llm_copy` makes of it. -/
def reviewCopy (cfg : ReviewCopyConfig) (llm : ReviewOutcome) (remotePath sourceName : Str) :
    ReviewOutcome :=
  if cfg.enable then
    match listVerdict cfg remotePath sourceName with
    | some decision => .decision decision
    | none => llm
  else .skipped

/-! ### The file that is meant -/

/-- One segment of a path, with the segments in front of it from the last. -/
def resolveSegment (absolute : Bool) (stack : List Str) (seg : Str) : List Str :=
  if seg = [] ∨ seg = dot then stack
  else if seg = dotdot then
    match stack with
    | [] => if absolute then [] else [dotdot]
    | top :: rest => if top = dotdot then dotdot :: stack else rest
  else seg :: stack

/-- A path without `.`, repeated slashes and detours. -/
def lexical (path : Str) : Bool × List Str :=
  let absolute := path.head? == some '/'
  (absolute, (segments path).foldl (resolveSegment absolute) [])

def SameFile (path path' : Str) : Prop := lexical path = lexical path'

/-- How an upload is done. -/
inductive Sink
  | sftp
  | shell

/-- Where an upload into a directory writes a file: `upload` of `sftp_copy.rs` names it by its
frame, `resolve_upload_dest` by the source. -/
def Sink.destination (sink : Sink) (remotePath sourceName relativePath : Str) : Str :=
  joinRemote remotePath <| match sink with
    | .sftp => copyEntryName relativePath sourceName "copy"
    | .shell =>
      let name := lastPiece '/' (trimEndMatches '/' sourceName)
      if name = [] then "upload" else name

end CrossHostOps.CopyReview
