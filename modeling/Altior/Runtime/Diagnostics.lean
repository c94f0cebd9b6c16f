import Altior.Domain.Text

/-!
# Diagnostics summaries

Redaction and truncation of raw diagnostics before they reach the journal
(`altior-core/src/runtime/diagnostics.rs`).
-/

namespace Altior.Runtime

open Domain

/-- Size in bytes above which a summary is truncated. -/
def maxDiagnosticsBytes : Nat := 4096

/-- `char::is_ascii_alphanumeric`. -/
def isAsciiAlphanumeric (c : Char) : Bool := c.isAlphanum

def startsWithIgnoreAsciiCase (cs : List Char) (pat : String) : Bool :=
  (pat.toList.map Char.toLower).isPrefixOf (cs.map Char.toLower)

def isTokenChar (c : Char) : Bool := isAsciiAlphanumeric c || "._~+/=-".toList.contains c

def isSecretDelimiter (c : Char) : Bool :=
  isWhitespace c || "&;,\"'\x7d]".toList.contains c

/-- The key-value secrets. -/
def kvPatterns : List String := ["password=", "token=", "secret=", "api_key=", "apikey="]

/-- What the redaction does at one position: the text it writes and the text it
goes on with. -/
def redactStep (c : Char) (cs : List Char) : List Char × List Char :=
  let all := c :: cs
  if startsWithIgnoreAsciiCase all "bearer " then
    ("Bearer [REDACTED]".toList, (all.drop 7).dropWhile isTokenChar)
  else if startsWithIgnoreAsciiCase all "authorization:" then
    ("Authorization: [REDACTED]".toList, (all.drop 14).dropWhile fun c => c != '\n' && c != '\r')
  else if (startsWithIgnoreAsciiCase all "sk-" || startsWithIgnoreAsciiCase all "sk_")
      && 3 < all.length then
    ("sk-[REDACTED]".toList,
      (all.drop 3).dropWhile fun c => isAsciiAlphanumeric c || c == '-' || c == '_')
  else match kvPatterns.find? fun pat => startsWithIgnoreAsciiCase all pat with
    | some pat =>
      (pat.toList ++ "[REDACTED]".toList,
        (all.drop pat.length).dropWhile fun c => !isSecretDelimiter c)
    | none => ([c], cs)

/-- Every round consumes a character, so the length of the text is enough
rounds. -/
def redactLoop : Nat → List Char → List Char
  | 0, _ => []
  | _ + 1, [] => []
  | rounds + 1, c :: cs =>
    let (out, rest) := redactStep c cs
    out ++ redactLoop rounds rest

/-- Replaces the secret patterns of a text. -/
def redactSecrets (input : List Char) : List Char := redactLoop input.length input

/-- The longest part from the start that fits in a number of bytes. -/
def cutAt : Nat → List Char → List Char
  | _, [] => []
  | n, c :: cs => if c.utf8Size ≤ n then c :: cutAt (n - c.utf8Size) cs else []

/-- A redacted summary, truncated above `maxDiagnosticsBytes`. -/
structure BoundedDiagnosticsSummary where
  asStr : String
deriving DecidableEq, Repr

def BoundedDiagnosticsSummary.fromRaw (raw : String) : BoundedDiagnosticsSummary :=
  let redacted := redactSecrets raw.toList
  if maxDiagnosticsBytes < utf8Len redacted then
    ⟨String.ofList (cutAt maxDiagnosticsBytes redacted ++ "... [truncated]".toList)⟩
  else ⟨String.ofList redacted⟩

example : (BoundedDiagnosticsSummary.fromRaw "Token=abc;sk-12 ok").asStr =
    "token=[REDACTED];sk-[REDACTED] ok" := by decide

end Altior.Runtime
