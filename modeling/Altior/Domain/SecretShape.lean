import Altior.Domain.Text

/-!
# Secret-shaped content

The deterministic filter that keeps credential-shaped text out of memories
(`altior-domain/src/secret_shape.rs`).  The source scans bytes in some of the
detectors; a byte of a multi-byte character lies in none of the character
classes below, so the scans here run over characters.
-/

namespace Altior.Domain

/-- Characters of an identifier, for the boundary checks around a token. -/
def isIdentChar (c : Char) : Bool := c.isAlphanum || c == '_' || c == '-'

/-- The position is at the start or right after a non-identifier character. -/
def prevOk : Option Char → Bool
  | none => true
  | some c => !isIdentChar c

/-- PEM private key headers. -/
def detectPemBlock (s : List Char) : Bool :=
  match findSub "BEGIN ".toList (s.map Char.toUpper) with
  | none => false
  | some (_, rest) =>
    match findSub "PRIVATE KEY".toList rest with
    | none => false
    | some (between, _) => utf8Len between ≤ 32

/-- AWS access key ids: `AKIA` and 16 characters from `[A-Z0-9]`. -/
def detectAwsAccessKey (s : List Char) : Bool :=
  scan (fun prev cs =>
    "AKIA".toList.isPrefixOf cs
      && (cs.take 20).length == 20
      && (cs.take 20).all (fun c => c.isUpper || c.isDigit)
      && prevOk prev
      && prevOk (cs.drop 20).head?) none s

/-- A token with a fixed start, a body class and a minimal body length. -/
def detectToken (start : List Char) (body : Char → Bool) (minBody : Nat) (s : List Char) : Bool :=
  scan (fun prev cs =>
    start.isPrefixOf cs
      && prevOk prev
      && minBody ≤ ((cs.drop start.length).takeWhile body).length) none s

/-- `sk-` prefixed API keys. -/
def detectSkApiKey (s : List Char) : Bool :=
  detectToken "sk-".toList (fun c => c.isAlphanum || c == '-' || c == '_') 20 s

/-- GitHub tokens. -/
def detectGithubToken (s : List Char) : Bool :=
  ["ghp_", "gho_", "ghu_", "ghs_", "ghr_"].any fun start =>
    detectToken start.toList (fun c => c.isAlphanum || c == '_') 20 s

/-- Slack tokens. -/
def detectSlackToken (s : List Char) : Bool :=
  ["xoxb-", "xoxp-", "xoxa-", "xoxr-", "xoxs-"].any fun start =>
    detectToken start.toList (fun c => c.isAlphanum || c == '-') 10 s

/-- The double quote and the apostrophe. -/
def isQuote (c : Char) : Bool := c.toNat == 0x22 || c.toNat == 0x27

/-- The characters that end a word for the word-based detectors: whitespace,
quotes and the backtick. -/
def isWordBreak (c : Char) : Bool := isWhitespace c || isQuote c || c.toNat == 0x60

/-- JWT tokens: three base64url parts, the first starting with `eyJ`. -/
def detectJwtShape (s : List Char) : Bool :=
  (split isWordBreak s).any fun word =>
    let trimmed := trimMatches (fun c => c ∈ [',', ';', '(', ')', '<', '>']) word
    let parts := split (· == '.') trimmed
    "eyJ".toList.isPrefixOf trimmed
      && parts.length == 3
      && parts.all (fun p => p.all fun c => c.isAlphanum || c == '-' || c == '_')
      && parts.all (fun p => 8 ≤ p.length)

/-- Whether the text after a credential keyword assigns it a long value. -/
def assignsLongValue (afterKeyword : List Char) : Bool :=
  let remainder := trimStart afterKeyword
  let value? :=
    if ":=".toList.isPrefixOf remainder then some (remainder.drop 2)
    else match remainder with
      | '=' :: rest => some rest
      | ':' :: rest => some rest
      | _ => none
  match value? with
  | none => false
  | some value =>
    let clean := (trimStart value).dropWhile isQuote
    let token := clean.takeWhile fun c => !(isWhitespace c || isQuote c || c == ',' || c == ';')
    20 ≤ utf8Len token && token.any Char.isAlphanum

/-- The search loop of one keyword.  Every round consumes the keyword, so the
length of the text is enough fuel. -/
def keywordLoop (keyword : List Char) : Nat → Option Char → List Char → Bool
  | 0, _, _ => false
  | fuel + 1, prev, cs =>
    match findSub keyword cs with
    | none => false
    | some (before, after) =>
      let boundary := prevOk (before.getLast?.orElse fun _ => prev)
      (boundary && assignsLongValue after) || keywordLoop keyword fuel keyword.getLast? after

/-- The credential keywords of `detectCredentialAssignment`. -/
def credentialKeywords : List String :=
  ["password", "passwd", "secret", "token", "api_key", "apikey", "access_token", "auth_token",
    "private_key"]

/-- Key-value credential assignments. -/
def detectCredentialAssignment (s : List Char) : Bool :=
  let lower := s.map Char.toLower
  credentialKeywords.any fun keyword => keywordLoop keyword.toList (lower.length + 1) none lower

/-- The hexadecimal digits. -/
def isHexDigit (c : Char) : Bool :=
  c.isDigit || ('a' ≤ c && c ≤ 'f') || ('A' ≤ c && c ≤ 'F')

/-- The run of hex digits reaches `minLen`, counting from `currentLen`. -/
def detectLongHexRunLen (minLen : Nat) : Nat → List Char → Bool
  | _, [] => false
  | currentLen, c :: cs =>
    if isHexDigit c then
      minLen ≤ currentLen + 1 || detectLongHexRunLen minLen (currentLen + 1) cs
    else detectLongHexRunLen minLen 0 cs

/-- Long uninterrupted hex runs. -/
def detectLongHexRun (s : List Char) : Bool := detectLongHexRunLen 32 0 s

/-- Long base64 runs with padding, symbols or mixed cases. -/
def detectLongBase64Run (s : List Char) (minLen : Nat) : Bool :=
  (split isWordBreak s).any fun word =>
    let trimmed := trimMatches (fun c => c ∈ [',', ';', ':', '=', '(', ')']) word
    minLen ≤ utf8Len trimmed
      && trimmed.all (fun c => c.isAlphanum || c ∈ ['+', '/', '=', '-', '_'])
      && (trimmed.contains '+' || trimmed.contains '/' || trimmed.getLast? == some '='
        || (trimmed.any Char.isUpper && trimmed.any Char.isLower && trimmed.any Char.isDigit
          && 48 ≤ utf8Len trimmed))

/-- Whether the candidate contains any secret-shaped pattern. -/
def isSecretShaped (candidate : String) : Bool :=
  let s := candidate.toList
  if (trim s).isEmpty then false
  else
    detectPemBlock s || detectAwsAccessKey s || detectSkApiKey s || detectGithubToken s
      || detectSlackToken s || detectJwtShape s || detectCredentialAssignment s
      || detectLongHexRun s || detectLongBase64Run s 40

example : isSecretShaped "password = hunter2hunter2hunter2" = true := by decide
example : isSecretShaped "prefers tabs over spaces" = false := by decide

end Altior.Domain
