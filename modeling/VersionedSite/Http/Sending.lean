import VersionedSite.Http.Exchange

/-!
# Sending requests

A request is put together from texts as a client writes them. What no client would send is refused
before anything is exchanged: an address that is none, or a user's name that no header can hold. Of an
address only the path and the query are sent. Steps of the path that lead nowhere are taken out before, so
that a dot stays if it is written as an escape.

* `withoutDots_of_plain`: a path of plain steps stays as it is.
* `compose_of_path`: what is sent for a path and a query.
-/

namespace VersionedSite.Http

/-- Why a request is not sent. -/
inductive SendFault where
  /-- The address is none. -/
  | address
  /-- The user's name is not in ASCII. -/
  | userText
  deriving DecidableEq, Repr

namespace Request

/-- The greatest number of characters of an address. -/
def addressLimit : Nat := 65536

/-- Whether a character may stand in an address as it is written. -/
def isShown (c : Char) : Bool := 0x20 ≤ c.toNat && c.toNat ≠ 0x7f

/-- Whether a character may stand in a scheme. -/
def inScheme (c : Char) : Bool := c.isAlphanum || c == '+' || c == '.' || c == '-'

/-- The scheme of an address, which may be empty, and what is behind it. -/
def schemed (s : List Char) : List Char × List Char :=
  let scheme := s.takeWhile inScheme
  match s.dropWhile inScheme with
  | ':' :: rest => if scheme.head?.all Char.isAlpha then (scheme, rest) else ([], s)
  | _ => ([], s)

/-- Whether a character ends the part of an address that names the host. -/
def endsHost (c : Char) : Bool := c == '/' || c == '?' || c == '#'

/-- Whether a text is the number of a port, if it is any. -/
def isPort (s : List Char) : Bool := s.all Char.isDigit && Json.digitsValue s ≤ 65535

/-- Whether a host is followed by nothing or by a port. -/
def isHost (s : List Char) : Bool :=
  let named := (s.reverse.takeWhile (· ≠ '@')).reverse
  match named.dropWhile (· ≠ ':') with
  | ':' :: port => named.head? == some '[' || isPort port
  | _ => true

/-- Add a step to the steps taken so far, the last one first. -/
def walk (taken : List (List Char)) (step : List Char) : List (List Char) :=
  if step = ['.'] then taken
  else if step = ['.', '.'] then (if taken = [[]] then taken else taken.drop 1)
  else step :: taken

/-- Steps without those that stay and those that lead back. -/
def withoutDots (steps : List (List Char)) : List (List Char) := (steps.foldl walk []).reverse

/-- A path from the root, before it is decoded. -/
def rooted (raw : List Char) : List Char :=
  let steps := withoutDots (('/' :: raw.dropWhile (· == '/')).splitOn '/')
  match ['/'].intercalate steps with
  | [] => ['/']
  | path => path

/-- The part of an address that is sent, from its path on. -/
def asSent (behind : List Char) : String :=
  let whole := behind.takeWhile (· ≠ '#')
  String.ofList (rooted (whole.takeWhile (· ≠ '?')) ++ whole.dropWhile (· ≠ '?'))

/-- What is sent for an address, if it is one: with or without a scheme and a host. Without both the path
begins neither with two slashes nor with a colon. -/
def target? (address : String) : Option String :=
  let text := address.toList
  if text.length > addressLimit || !text.all isShown then none
  else
    let (scheme, rest) := schemed text
    match rest with
    | '/' :: '/' :: rest =>
      let host := rest.takeWhile fun c => !endsHost c
      let behind := rest.dropWhile fun c => !endsHost c
      if !isHost host then none
      else if scheme.isEmpty && host.isEmpty && ['/', '/'].isPrefixOf behind then none
      else some (asSent behind)
    | _ => if scheme.isEmpty && rest.head? == some ':' then none else some (asSent rest)

/-- The request of texts. -/
def compose (method address : String) (user : Option String) (body : String) :
    Except SendFault Request :=
  match target? address with
  | none => .error .address
  | some target =>
    if (user.getD "").toList.any (0x80 ≤ ·.toNat) then .error .userText
    else .ok { method := String.ofList (method.toList.map Char.toUpper), target, user, body }

/-! ## Laws -/

theorem foldl_walk_of_plain (taken : List (List Char)) {steps : List (List Char)}
    (h : ∀ s ∈ steps, s ≠ ['.'] ∧ s ≠ ['.', '.']) :
    steps.foldl walk taken = steps.reverse ++ taken := by
  induction steps generalizing taken with
  | nil => rfl
  | cons s steps ih =>
    have hs := h s (List.mem_cons_self)
    rw [List.foldl_cons, ih _ fun t ht => h t (List.mem_cons_of_mem s ht)]
    simp [walk, hs.1, hs.2]

theorem withoutDots_of_plain {steps : List (List Char)}
    (h : ∀ s ∈ steps, s ≠ ['.'] ∧ s ≠ ['.', '.']) : withoutDots steps = steps := by
  simp [withoutDots, foldl_walk_of_plain [] h]

/-- What is sent for a path and a query, as long as it is not too long and can be written. -/
theorem compose_of_path {method address : String} {user : Option String} {body : String} {c : Char}
    {rest : List Char} {r : Request} (haddress : address.toList = '/' :: c :: rest) (hc : c ≠ '/')
    (h : compose method address user body = .ok r) :
    r.target = asSent address.toList ∧ r.method = String.ofList (method.toList.map Char.toUpper) ∧
      r.user = user := by
  have hschemed : schemed ('/' :: c :: rest) = ([], '/' :: c :: rest) := rfl
  have htarget : ∀ target, target? address = some target → target = asSent address.toList := by
    intro target ht
    rw [target?, haddress] at ht
    dsimp only at ht
    split at ht
    · cases ht
    · rw [hschemed] at ht
      dsimp only at ht
      split at ht
      · rename_i heq
        cases heq
        exact absurd rfl hc
      · cases ht
        rw [haddress]
  rw [compose] at h
  cases ht : target? address with
  | none =>
    rw [ht] at h
    cases h
  | some target =>
    rw [ht] at h
    dsimp only at h
    split at h <;> cases h
    exact ⟨htarget target ht, rfl, rfl⟩

end Request

end VersionedSite.Http
