import SastEngine.Python.Regex
import SastEngine.Python.Text

/-!
# Secret redaction

`validate/redaction.py`: every match of seven patterns, one pattern after the other, is replaced by
a placeholder.  Which characters `\w` stands for is a parameter.
-/

namespace Sast

open Regex (all any opt times text)

/-- `_REDACTED`. -/
def redacted : String := "<REDACTED:secret>"

/-! ## Pieces of patterns -/

/-- The letter that a character matches under `IGNORECASE`. -/
def foldCase (c : Char) : Char :=
  if c.toNat = 0x130 ∨ c.toNat = 0x131 then 'i'
  else if c.toNat = 0x17F then 's'
  else if c.toNat = 0x212A then 'k'
  else c.toLower

/-- A text under `IGNORECASE`, given in lower case. -/
def anyCase (s : String) : Regex := all (s.toList.map fun c => .char (foldCase · == c))

/-- `[_-]?` -/
def optDash : Regex := opt (.char fun c => c == '_' || c == '-')

/-- `['\"]` -/
def isQuote (c : Char) : Bool := c == '\'' || c == '"'

/-- A letter or digit under `IGNORECASE`: `[A-Z0-9]`. -/
def isAlnumFold (c : Char) : Bool := (foldCase c).isAlphanum

/-- `\s*[=:]\s*['\"]`, a value, and `['\"]`. -/
def assigned (value : Regex) : Regex :=
  all [.many isSpace 0, .char fun c => c == '=' || c == ':', .many isSpace 0, .char isQuote, value,
    .char isQuote]

/-- `[^'\"]{4,}` -/
def secretText : Regex := .many (fun c => !isQuote c) 4

/-- `(?:RSA |EC |DSA |OPENSSH |ENCRYPTED )?PRIVATE KEY-----` -/
def privateKey : Regex :=
  all [opt (any [text "RSA ", text "EC ", text "DSA ", text "OPENSSH ", text "ENCRYPTED "]),
    text "PRIVATE KEY-----"]

/-! ## Patterns -/

/-- `_SECRET_PATTERNS`. -/
def secretPatterns : List Regex :=
  [all [text "-----BEGIN ", privateKey, .fewest fun _ => true, text "-----END ", privateKey],
    all
      [any
        [all [anyCase "api", optDash, anyCase "key"], anyCase "apikey", anyCase "secret",
          all [anyCase "secret", optDash, anyCase "key"], anyCase "token",
          all [anyCase "auth", optDash, anyCase "token"],
          all [anyCase "access", optDash, anyCase "key"], anyCase "password", anyCase "passwd",
          anyCase "pwd", all [anyCase "db", optDash, anyCase "password"]],
        .boundary, assigned secretText],
    any
      [all [anyCase "akia", times isAlnumFold 16],
        all
          [anyCase "aws", optDash,
            any
              [all [anyCase "access", optDash, anyCase "key"],
                all [anyCase "secret", optDash, anyCase "key"]],
            opt (.char isQuote),
            assigned (.many (fun c => isAlnumFold c || c == '/' || c == '+' || c == '=') 16)]],
    all
      [.boundary, anyCase "bearer", .many isSpace 1,
        .many (fun c => isAlnumFold c || "-._~+/".toList.contains c) 1, .many (· == '=') 0,
        .boundary],
    all
      [.boundary,
        any
          [all [anyCase "postgres", opt (anyCase "ql")], anyCase "mysql", anyCase "mssql",
            anyCase "sqlite", anyCase "mongodb", anyCase "redis", anyCase "amqp"],
        opt (all [text "+", .many isAlnumFold 1]), text "://",
        .many (fun c => !(c == '\'' || isSpace c || c == '"' || c == '\\')) 1],
    all
      [.boundary, any [anyCase "x-api-key", anyCase "authorization"], .boundary,
        assigned secretText],
    all
      [.boundary,
        any
          [text "ghp", text "github_pat",
            all [text "xox", .char fun c => "baprs".toList.contains c, text "-"]],
        .many (fun c => c.isAlphanum || c == '_' || c == '-') 1]]

/-- `redact_secrets`. -/
def redactSecrets (word : Char → Bool) (text : String) : String :=
  String.ofList (Regex.subAll word id redacted.toList secretPatterns text.toList)

end Sast
