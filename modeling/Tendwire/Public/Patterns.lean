import Tendwire.Public.Words
import Tendwire.Strings.Regex

/-!
# Patterns of private text

The regular expressions of the public sanitizer.
-/

namespace Tendwire.Public

open Strings Regex

/-- A class says of a character, and of whether it is `\w` and `\d`, whether it belongs to it. -/
abbrev CharClass := CodePoint → Bool → Bool → Bool

abbrev Pattern := Regex CharClass

def Tables.test (T : Tables) (p : CharClass) (c : CodePoint) : Bool := p c (T.isWord c) (T.isDecimal c)

namespace CharClass

def exactly (ch : Char) : CharClass := fun c _ _ => c == codePoint ch

def anyOf (s : String) : CharClass := fun c _ _ => (ofString s).contains c

def range (a b : Char) : CharClass := fun c _ _ => (codePoint a).val ≤ c.val && c.val ≤ (codePoint b).val

def word : CharClass := fun _ w _ => w

def digit : CharClass := fun _ _ d => d

def blank : CharClass := fun c _ _ => isSpace c

def union (ps : List CharClass) : CharClass := fun c w d => ps.any fun p => p c w d

def other (p : CharClass) : CharClass := fun c w d => !p c w d

def swapCase (c : CodePoint) : CodePoint :=
  if isUpperLetter c then c + 0x20 else if isLowerLetter c then c - 0x20 else c

/-- `(?i:…)`: four letters beyond ASCII match an ASCII letter. -/
def ignoreCase (p : CharClass) : CharClass := fun c w d =>
  p c w d || p (swapCase c) w d || ((c.val == 0x130 || c.val == 0x131) && p (codePoint 'i') w d) ||
    (c.val == 0x17F && p (codePoint 's') w d) || (c.val == 0x212A && p (codePoint 'k') w d)

/-- `[A-Za-z0-9…]`. -/
def alnumOr (s : String) : CharClass := union [range 'A' 'Z', range 'a' 'z', range '0' '9', anyOf s]

/-- `[\w…]`. -/
def wordOr (s : String) : CharClass := union [word, anyOf s]

/-- `[^\s…]`. -/
def solidExcept (s : String) : CharClass := other (union [blank, anyOf s])

end CharClass

open CharClass

def lit (s : String) : Pattern := seqs (s.toList.map fun ch => one (exactly ch))

/-- `(?i:s)`. -/
def iLit (s : String) : Pattern := seqs (s.toList.map fun ch => one (ignoreCase (exactly ch)))

def wordEdge : Pattern := boundary word

/-- `p*`, `p+`, `p{n,}`. -/
def some0 (p : CharClass) : Pattern := many p 0 none

def some1 (p : CharClass) : Pattern := many p 1 none

def atLeast (n : ℕ) (p : CharClass) : Pattern := many p n none

/-- `(?:\"[^\"\n]*\"|'[^'\n]*'|bare+)`. -/
def quotedOr (bare : CharClass) : Pattern :=
  alts [seqs [lit "\"", some0 (other (anyOf "\"\n")), lit "\""],
    seqs [lit "'", some0 (other (anyOf "'\n")), lit "'"], some1 bare]

/-- `a[_ -]?b`. -/
def joined (a b : String) : Pattern := seqs [iLit a, opt (one (anyOf "_ -")), iLit b]

def compoundLabels : Pattern :=
  alts [joined "pane" "id", joined "terminal" "id", joined "session" "id",
    seqs [iLit "tool", opt (one (anyOf "_ -")), alts [iLit "use", iLit "call"],
      opt (one (anyOf "_ -")), iLit "id"],
    seqs [iLit "pending", opt (one (anyOf "_ -")), iLit "decision", opt (one (anyOf "_ -")),
      iLit "id"],
    joined "backend" "target", joined "private" "fingerprint", joined "chat" "id",
    joined "topic" "id", joined "message" "id", joined "thread" "id", joined "socket" "path",
    joined "working" "directory"]

def labels : Pattern :=
  alts ((["cwd", "workdir", "argv", "environment", "env", "stdin", "stdout", "stderr", "command",
      "token", "secret", "password"].map iLit) ++
    [joined "api" "key", iLit "authorization", iLit "credential"])

/-- `\s*(?:[:=]|\s)\s*`. -/
def compoundGap : Pattern :=
  seqs [some0 blank, alts [one (anyOf ":="), one blank], some0 blank]

/-- `\s*[:=]\s*`. -/
def labelGap : Pattern := seqs [some0 blank, one (anyOf ":="), some0 blank]

/-- `_PUBLIC_COMPOUND_PRIVATE_RE`. -/
def compoundPrivate : Pattern :=
  seqs [wordEdge, compoundLabels, compoundGap, quotedOr (solidExcept ",;")]

/-- `_PUBLIC_LABELLED_PRIVATE_RE`. -/
def labelledPrivate : Pattern := seqs [wordEdge, labels, labelGap, quotedOr (solidExcept ",;")]

def schemeChars : CharClass := ignoreCase (union [range 'a' 'z', range '0' '9', anyOf "+.-"])

/-- `_PUBLIC_CREDENTIAL_URL_RE`. -/
def credentialUrl : Pattern :=
  seqs [wordEdge, one (ignoreCase (range 'a' 'z')), some0 schemeChars, lit "://",
    some1 (solidExcept "/:@"), lit ":", some1 (solidExcept "/@"), lit "@", some1 (solidExcept "<>()")]

/-- `_PUBLIC_SOCKET_URI_RE`. -/
def socketUri : Pattern :=
  seqs [wordEdge, alts [iLit "unix", iLit "socket", iLit "file"], lit "://",
    some1 (solidExcept "<>()")]

def pathChars : CharClass := wordOr ".@+-"

/-- `_PUBLIC_PATH_RE`. -/
def privatePath : Pattern :=
  alts [
    seqs [notBehind (wordOr "/:"), lit "/", some1 pathChars, plus (seqs [lit "/", some1 pathChars])],
    seqs [notBehind (wordOr "/"), lit "/",
      alts (["etc", "root", "home", "var", "opt", "srv", "usr", "tmp", "run", "proc", "sys", "mnt",
        "media", "boot", "dev", "private"].map lit), wordEdge],
    seqs [notBehind word, lit "~/", star (seqs [some1 pathChars, lit "/"]), some1 pathChars],
    seqs [wordEdge, alts [lit "home", lit "Users", lit "root"], lit "/",
      plus (seqs [some1 pathChars, lit "/"]), some1 pathChars],
    seqs [wordEdge, one (union [range 'A' 'Z', range 'a' 'z']), lit ":\\", some1 (solidExcept "\"'")],
    seqs [lit "\\\\", some1 (solidExcept "\"'")]]

/-- `(?:\.\d{1,3}){n}`. -/
def octets (n : ℕ) : Pattern := times n (seqs [lit ".", many digit 1 (some 3)])

/-- `[0-9a-f:]` in any case. -/
def hexColon : CharClass := ignoreCase (union [range '0' '9', range 'a' 'f', anyOf ":"])

/-- `_PUBLIC_PRIVATE_ENDPOINT_RE`. -/
def privateEndpoint : Pattern :=
  alts [
    seqs [wordEdge,
      alts [seqs [lit "10", octets 3], seqs [lit "127", octets 3], seqs [lit "169.254", octets 2],
        seqs [lit "192.168", octets 2],
        seqs [lit "172.", alts [seqs [lit "1", one (range '6' '9')], seqs [lit "2", one digit],
          seqs [lit "3", one (anyOf "01")]], octets 2]],
      opt (seqs [lit ":", many digit 1 (some 5)]), wordEdge],
    alts [
      seqs [wordEdge, alts [iLit "fc", iLit "fd"], some0 hexColon, lit ":", some1 hexColon, wordEdge],
      seqs [wordEdge, iLit "fe80:", some1 hexColon, wordEdge],
      seqs [notBehind (exactly ':'), lit "::1", wordEdge]]]

/-- `_PUBLIC_PROVIDER_CREDENTIAL_RE`. -/
def providerCredential : Pattern :=
  alts [
    seqs [wordEdge, lit "sk-", atLeast 6 (alnumOr "_-"), wordEdge],
    seqs [wordEdge, lit "gh", one (anyOf "oprsu"), lit "_", atLeast 6 (alnumOr ""), wordEdge],
    seqs [wordEdge, lit "xox", one (anyOf "baprs"), lit "-", atLeast 6 (alnumOr "-"), wordEdge],
    seqs [wordEdge, lit "AKIA", atLeast 12 (union [range '0' '9', range 'A' 'Z']), wordEdge],
    seqs [wordEdge, lit "AIza", atLeast 10 (alnumOr "_-"), wordEdge],
    seqs [wordEdge, lit "glpat-", atLeast 8 (alnumOr "_-"), wordEdge],
    seqs [wordEdge, lit "npm_", atLeast 20 (alnumOr ""), wordEdge],
    seqs [wordEdge, lit "pypi-", atLeast 20 (alnumOr "_-"), wordEdge],
    seqs [wordEdge, atLeast 6 digit, lit ":", atLeast 20 (alnumOr "_-"), wordEdge]]

/-- `_PUBLIC_JWT_RE`. -/
def jsonWebToken : Pattern :=
  seqs [wordEdge, lit "eyJ", atLeast 4 (alnumOr "_-"), lit ".", atLeast 4 (alnumOr "_-"), lit ".",
    atLeast 4 (alnumOr "_-"), wordEdge]

/-- `_PUBLIC_BEARER_RE`. -/
def bearer : Pattern :=
  seqs [wordEdge, alts [iLit "Bearer", iLit "Basic"], some1 blank,
    atLeast 8 (ignoreCase (alnumOr "._~+/=-"))]

/-- `(?<![A-Za-z0-9_])[A-Z][A-Z0-9_]{2,}=`. -/
def assignedName : Pattern :=
  seqs [notBehind (alnumOr "_"), one (range 'A' 'Z'),
    atLeast 2 (union [range 'A' 'Z', range '0' '9', anyOf "_"]), lit "="]

/-- `_PUBLIC_ENV_ASSIGNMENT_RE`. -/
def envAssignment : Pattern := seqs [assignedName, quotedOr (solidExcept ";&|")]

def lowerAlnum : CharClass := ignoreCase (union [range '0' '9', range 'a' 'z'])

/-- `_PUBLIC_PRIVATE_IDENTIFIER_RE`. -/
def privateIdentifier : Pattern :=
  alts [
    seqs [wordEdge,
      alts [iLit "toolu", iLit "tool_use", iLit "call", iLit "session", iLit "sess"], lit "_",
      atLeast 6 (ignoreCase (alnumOr "_-")), wordEdge],
    seqs [wordEdge, iLit "w", ahead (seqs [some0 lowerAlnum, one digit]), some1 lowerAlnum, lit ":",
      one (ignoreCase (range 'a' 'z')), some0 lowerAlnum, wordEdge],
    seqs [wordEdge, iLit "term", one (anyOf "_-"),
      atLeast 4 (ignoreCase (union [range '0' '9', range 'a' 'z', anyOf "_-"])), wordEdge],
    seqs [notBehind digit, lit "-100", atLeast 10 digit, wordEdge]]

/-- `_PUBLIC_EMAIL_RE`. -/
def email : Pattern :=
  seqs [wordEdge, some1 (wordOr ".+-"), lit "@", some1 (wordOr "-"), lit ".", one word,
    some0 (wordOr ".-"), wordEdge]

/-- `_PUBLIC_SENSITIVE_TEXT_RE`. -/
def sensitiveText : Pattern :=
  alts [compoundPrivate, labelledPrivate, credentialUrl, socketUri, privatePath, privateEndpoint,
    providerCredential, jsonWebToken, bearer, envAssignment, privateIdentifier, email]

/-- `(?:\"[^\"\n]*|'[^'\n]*|bare*)`. -/
def openQuoteOr (bare : CharClass) : Pattern :=
  alts [seqs [lit "\"", some0 (other (anyOf "\"\n"))], seqs [lit "'", some0 (other (anyOf "'\n"))],
    some0 bare]

/-- `_PUBLIC_SENSITIVE_CROSSING_RE`, in any case as a whole. -/
def sensitiveCrossing : Pattern :=
  seqs [
    alts [
      seqs [wordEdge, compoundLabels, compoundGap, openQuoteOr (solidExcept ",;")],
      seqs [wordEdge, labels, labelGap, openQuoteOr (solidExcept ",;")],
      seqs [wordEdge, one (ignoreCase (range 'a' 'z')), some0 schemeChars, lit "://",
        some1 (solidExcept "/:@"), lit ":", some0 (solidExcept "<>()")],
      seqs [wordEdge,
        alts [iLit "sk-", seqs [iLit "gh", one (ignoreCase (anyOf "oprsu")), lit "_"],
          seqs [iLit "xox", one (ignoreCase (anyOf "baprs")), lit "-"], iLit "AKIA", iLit "AIza",
          iLit "glpat-", iLit "npm_", iLit "pypi-"], some0 (ignoreCase (alnumOr "_-"))],
      seqs [notBehind digit, atLeast 6 digit, lit ":", some0 (ignoreCase (alnumOr "_-"))],
      seqs [wordEdge, iLit "eyJ", some0 (ignoreCase (alnumOr "_.-"))],
      seqs [wordEdge, alts [iLit "Bearer", iLit "Basic"], some1 blank,
        some0 (ignoreCase (alnumOr "._~+/=-"))],
      seqs [notBehind (ignoreCase (alnumOr "_")), one (ignoreCase (range 'A' 'Z')),
        atLeast 2 (ignoreCase (union [range 'A' 'Z', range '0' '9', anyOf "_"])), lit "=",
        openQuoteOr (solidExcept ";&|")]],
    finish]

/-- `_RAW_COMMAND_HEAD_RE`. -/
def rawCommandHead : Pattern :=
  seqs [start, opt (seqs [iLit "sudo", some1 blank]), opt (seqs [iLit "env", some1 blank]),
    alts ((["bash", "sh", "zsh", "fish", "cmd", "powershell", "pwsh"].map iLit) ++
      [seqs [iLit "python", some0 digit]] ++
      (["node", "npm", "npx", "git", "gh", "docker", "kubectl", "make", "pytest", "herdr",
        "tendwire", "tmux", "screen", "curl", "wget", "ssh", "scp", "rsync", "rm", "cat",
        "sed"].map iLit)),
    alts [one blank, lineFinish]]

/-- `_RAW_COMMAND_OPTION_RE`. -/
def rawCommandOption : Pattern :=
  seqs [one blank, lit "-", opt (lit "-"), one (alnumOr ""), some0 (alnumOr "_-")]

/-- `_SHELL_META_RE`. -/
def shellMeta : Pattern := one (anyOf ";&|`$<>")

/-- `_PUBLIC_OPAQUE_ID_RE`. -/
def opaqueId : Pattern :=
  seqs [start, alts (["attn", "choice", "pending", "space", "turn", "turnsrc", "worker"].map lit),
    lit "-", many (union [range '0' '9', range 'a' 'f']) 24 (some 24), lineFinish]

/-- `_PUBLIC_TELEGRAM_CHAT_ID_RE`. -/
def telegramChatId : Pattern := seqs [lit "-100", atLeast 10 digit]

end Tendwire.Public
