import VersionedSite.Digest.Mac
import VersionedSite.Json.Reader
import VersionedSite.Text.Base64
import VersionedSite.Text.Search
import VersionedSite.Text.Utf8

/-!
# Preview tokens

A token lets whoever holds it fetch one project's browser module at one revision, for a limited time
and in the name of one user. It is the text of a small JSON object in 64 digits, a dot, and a keyed
digest of that text. What the digest vouches for is trusted as far as its kind goes: a payload that is
signed but is not what was ever issued is a fault.

* `verify_of_not_two`: a text without exactly one dot is refused.
* `verify_of_signature_ne`: so is one whose signature is not that of its payload.
-/

namespace VersionedSite

/-- Who signs, and for how many seconds a token is good. -/
structure TokenSigner where
  /-- The signature of a payload, in ASCII. -/
  sign : List Char → List Char
  /-- The seconds for which a token is good. -/
  life : Number

namespace TokenSigner

/-- The signer with a secret. -/
def ofSecret (secret : String) (life : Number) : TokenSigner :=
  { sign := fun payload =>
      Digest.hexText (Digest.mac (Text.Utf8.encode secret.toList) (Text.Utf8.encode payload))
    life }

/-- A time in seconds as whole milliseconds, unless it is beyond all numbers. -/
def millis? (seconds : Number) : Option Int :=
  match seconds.mul (.int 1000) with
  | .int n => some n
  | .real x => x.truncate?

/-- The most digits of a whole number that is written or read. -/
def mostDigits : Nat := 4300

/-- Whether a whole number has no more digits than are written. -/
def isWritable (n : Int) : Bool := (Nat.toDigits 10 n.natAbs).length ≤ mostDigits

/-- The payload of a token. -/
def payload (project : String) (revision : Int) (user : String) (expiry : Int) : Json :=
  .obj [("p", .str project), ("r", .int revision), ("u", .str user), ("exp", .int expiry)]

/-- The token over a payload. -/
def tokenOf (s : TokenSigner) (payload : List Char) : List Char :=
  Text.Base64.encode (Text.Utf8.encode payload) ++ '.' :: s.sign payload

/-- What can be wrong with a time, with a payload, or with a signature. -/
inductive Fault where
  /-- The time is beyond all numbers. -/
  | time
  /-- The signature is not in ASCII. -/
  | signatureText
  /-- The payload is no JSON. -/
  | payloadText
  /-- The payload has a number of too many digits. -/
  | payloadNumber
  /-- The payload has values too deep in others. -/
  | payloadDepth
  /-- The payload is no object. -/
  | payloadKind
  /-- The expiry is no number. -/
  | expiryKind
  /-- The payload names no user. -/
  | userMissing
  deriving DecidableEq, Repr

/-- The token for a user's module at a time in seconds. -/
def issue (s : TokenSigner) (now : Number) (project : String) (revision : Int) (user : String) :
    Except Fault String :=
  match millis? (now.add s.life) with
  | none => .error .time
  | some expiry =>
    if isWritable revision && isWritable expiry then
      .ok (String.ofList
        (s.tokenOf ((payload project revision user expiry).render Json.compact).toList))
    else .error .payloadNumber

/-- The outcome of a verification. -/
inductive Verdict where
  /-- The token is good, for the user it names. -/
  | granted (user : Json)
  | refused
  | fault (f : Fault)
  deriving Repr

/-- The number that a value counts as. -/
def numberOf? : Json → Option Number
  | .num n => some n
  | .bool b => some (.int (if b then 1 else 0))
  | _ => none

/-- Whether a value is a text. -/
def isText (s : String) : Json → Bool
  | .str t => t == s
  | _ => false

/-- Whether a value counts as a whole number. -/
def isWhole (n : Int) (j : Json) : Bool :=
  match numberOf? j with
  | some x => x.same (.int n)
  | none => false

/-- The verdict on a payload that is signed. -/
def judge (now : Number) (project : String) (revision : Int) : Json → Verdict
  | .obj members =>
    match millis? now, numberOf? ((Json.lookup "exp" members).getD (.int 0)) with
    | none, _ => .fault .time
    | some _, none => .fault .expiryKind
    | some now, some expiry =>
      if expiry.less (.int now) then .refused
      else if ((Json.lookup "p" members).any (isText project) &&
          (Json.lookup "r" members).any (isWhole revision)) then
        match Json.lookup "u" members with
        | some user => .granted user
        | none => .fault .userMissing
      else .refused
  | _ => .fault .payloadKind

/-- The two sides of the only dot of a text. -/
def halves? (token : List Char) : Option (List Char × List Char) :=
  (Text.breakOn? ['.'] token).bind fun (payload, signature) =>
    if signature.contains '.' then none else some (payload, signature)

/-- The payload that a token carries in its first half. -/
def payload? (digits : List Char) : Option (List Char) :=
  (Text.Base64.decode? digits).bind Text.Utf8.decode?

/-- How freely payloads are read. -/
def payloadDialect : Json.Dialect := { beyond := true, digits := some mostDigits, depth := some 985 }

/-- Whether a token is good for a project's module at a revision, at a time in seconds. -/
def verify (s : TokenSigner) (now : Number) (token project : String) (revision : Int) : Verdict :=
  match (halves? token.toList).bind fun (digits, signature) =>
      (payload? digits).map fun text => (text, signature) with
  | none => .refused
  | some (text, signature) =>
    if signature.any (fun c => 0x80 ≤ c.toNat) then .fault .signatureText
    else if signature ≠ s.sign text then .refused
    else
      match Json.parse payloadDialect (String.ofList text) with
      | .error (.malformed _) => .fault .payloadText
      | .error .longNumber => .fault .payloadNumber
      | .error .tooDeep => .fault .payloadDepth
      | .ok payload => judge now project revision payload

theorem verify_of_not_two {s : TokenSigner} {now : Number} {token project : String} {revision : Int}
    (h : halves? token.toList = none) : s.verify now token project revision = .refused := by
  simp [verify, h]

theorem verify_of_signature_ne {s : TokenSigner} {now : Number} {token project : String}
    {revision : Int} {digits signature text : List Char}
    (hh : halves? token.toList = some (digits, signature)) (hp : payload? digits = some text)
    (ha : signature.any (fun c => 0x80 ≤ c.toNat) = false) (hs : signature ≠ s.sign text) :
    s.verify now token project revision = .refused := by
  simp only [verify, hh, Option.bind_some, hp, Option.map_some, ha, Bool.false_eq_true, if_false]
  rw [if_pos hs]

end TokenSigner

end VersionedSite
