import Cfscan.Store.Postgres
import Mathlib.Algebra.GroupWithZero.Nat
import Mathlib.Data.List.TakeWhile

/-!
# Secrets and tokens — `internal/enrollment/security.go`

What an agent generates for itself, the one text it later presents, and how the center takes that
text apart. `crypto/rand` is passed in as the bytes it fills the buffer with, and SHA-256 as a
function from texts to 32 bytes.

A `Credential` carries with it what its consumers check, that the id looks like a uuid and the
secret is not blank, and `generateCredential` builds one from any random bytes. So the token an
agent presents is always one the center can take apart (`parseAgentToken_token`).

Texts are sequences of characters here, which is enough for texts the program makes itself. What a
request may carry is bytes, and `Enrollment.RawToken` is about those. Nothing is said of how hard a
secret is to guess.
-/

set_option autoImplicit false

namespace Cfscan.Enrollment

open Cfscan.Store

/-! ## Hexadecimal

Only the injectivity is used later: digests that differ are different texts in the table. -/

def hexByte (byte : UInt8) : List Char :=
  [Nat.digitChar (byte.toNat / 16), Nat.digitChar (byte.toNat % 16)]

/-- `%x` of a byte slice, and `hex.EncodeToString`. -/
def hexBytes (bytes : List UInt8) : List Char := bytes.flatMap hexByte

@[simp] theorem length_hexBytes (bytes : List UInt8) :
    (hexBytes bytes).length = 2 * bytes.length := by
  induction bytes with
  | nil => rfl
  | cons byte bytes ih =>
    simp only [hexBytes, List.flatMap_cons, List.length_append, List.length_cons] at ih ⊢
    rw [ih]
    simp only [hexByte, List.length_cons, List.length_nil]
    omega

theorem digitChar_inj {a b : Nat} (ha : a < 16) (hb : b < 16)
    (h : Nat.digitChar a = Nat.digitChar b) : a = b := by
  have : ∀ a < 16, ∀ b < 16, Nat.digitChar a = Nat.digitChar b → a = b := by decide
  exact this a ha b hb h

theorem hexByte_inj {a b : UInt8} (h : hexByte a = hexByte b) : a = b := by
  obtain ⟨hhigh, hlow⟩ := by simpa only [hexByte, List.cons.injEq, and_true] using h
  have ha := a.toNat_lt
  have hb := b.toNat_lt
  have h₁ := digitChar_inj (by omega) (by omega) hhigh
  have h₂ := digitChar_inj (by omega) (by omega) hlow
  exact UInt8.toNat_inj.mp (by omega)

theorem hexBytes_inj {a b : List UInt8} (h : hexBytes a = hexBytes b) : a = b := by
  induction a generalizing b with
  | nil =>
    cases b with
    | nil => rfl
    | cons byte b => simp [hexBytes, hexByte] at h
  | cons byte a ih =>
    cases b with
    | nil => simp [hexBytes, hexByte] at h
    | cons byte' b =>
      simp only [hexBytes, List.flatMap_cons] at h
      obtain ⟨hhead, htail⟩ := List.append_inj h rfl
      rw [hexByte_inj hhead, ih htail]

/-! ## Secrets -/

def hashSecret (sha256 : String → Vector UInt8 32) (secret : String) : String :=
  String.ofList (hexBytes (sha256 secret).toList)

theorem hashSecret_inj {sha256 : String → Vector UInt8 32} {secret secret' : String}
    (h : hashSecret sha256 secret = hashSecret sha256 secret') :
    sha256 secret = sha256 secret' := by
  have hbytes := hexBytes_inj (String.ofList_injective h)
  exact Vector.toList_inj.mp hbytes

/-- The alphabet of `base64.RawURLEncoding`. -/
def base64Char (n : Nat) : Char :=
  if n < 26 then Char.ofNat (n + 65)
  else if n < 52 then Char.ofNat (n - 26 + 97)
  else if n < 62 then Char.ofNat (n - 52 + 48)
  else if n = 62 then '-'
  else '_'

/-- `base64.RawURLEncoding.EncodeToString`: three bytes give four characters, and what is left
over gives two or three. -/
def base64 : List UInt8 → List Char
  | [] => []
  | [a] => [base64Char (a.toNat / 4), base64Char (a.toNat % 4 * 16)]
  | [a, b] =>
    [base64Char (a.toNat / 4), base64Char (a.toNat % 4 * 16 + b.toNat / 16),
      base64Char (b.toNat % 16 * 4)]
  | a :: b :: c :: rest =>
    base64Char (a.toNat / 4) :: base64Char (a.toNat % 4 * 16 + b.toNat / 16) ::
      base64Char (b.toNat % 16 * 4 + c.toNat / 64) :: base64Char (c.toNat % 64) :: base64 rest

def generateSecret (buffer : Vector UInt8 32) : String := String.ofList (base64 buffer.toList)

theorem isSpace_base64Char {n : Nat} (h : n < 64) : isSpace (base64Char n) = false := by
  have : ∀ n < 64, isSpace (base64Char n) = false := by decide
  exact this n h

/-- A secret begins with a character that is not a space. -/
theorem generateSecret_ne (buffer : Vector UInt8 32) : trimSpace (generateSecret buffer) ≠ "" := by
  obtain ⟨a, rest, hlist⟩ :
      ∃ a rest, base64 buffer.toList = base64Char (UInt8.toNat a / 4) :: rest := by
    have hlen : buffer.toList.length = 32 := by simp
    match hbytes : buffer.toList, hlen with
    | a :: b :: c :: rest, _ => exact ⟨a, _, rfl⟩
  have hspace : isSpace (base64Char (a.toNat / 4)) = false :=
    isSpace_base64Char (by have := a.toNat_lt; omega)
  intro h
  have hnil := congrArg String.toList h
  simp only [trimSpace, generateSecret, hlist, String.toList_ofList,
    List.dropWhile_cons_of_neg (by simp [hspace] : ¬ isSpace (base64Char (a.toNat / 4)) = true),
    List.reverse_cons] at hnil
  have hempty := List.reverse_eq_nil_iff.mp hnil
  have hall := List.dropWhile_eq_nil_iff.mp hempty (base64Char (a.toNat / 4)) (by simp)
  rw [hspace] at hall
  cases hall

/-! ## UUIDs

A uuid made from sixteen bytes passes the check a token is put through, whatever the bytes.
The check goes by byte index, hence the sizes of characters in these lemmas. -/

/-- The places of the hyphens in a uuid. -/
def hyphenAt (index : Nat) : Bool :=
  decide (index = 8) || decide (index = 13) || decide (index = 18) || decide (index = 23)

def isHexDigit (c : Char) : Bool :=
  (decide ('0' ≤ c) && decide (c ≤ '9')) || (decide ('a' ≤ c) && decide (c ≤ 'f')) ||
    (decide ('A' ≤ c) && decide (c ≤ 'F'))

/-- The loop of `LooksLikeUUID`; `index` counts bytes, as `range` over a string does. -/
def looksLikeUUIDFrom : Nat → List Char → Bool
  | _, [] => true
  | index, c :: rest =>
    (if hyphenAt index then decide (c = '-') else isHexDigit c) &&
      looksLikeUUIDFrom (index + c.utf8Size) rest

def looksLikeUUID (value : String) : Bool :=
  decide (value.utf8ByteSize = 36) && looksLikeUUIDFrom 0 value.toList

/-- The layout of `GenerateUUID`: groups of 4, 2, 2, 2 and 6 bytes. -/
def uuidGroups (bytes : List UInt8) : List Char :=
  hexBytes (bytes.take 4) ++ '-' :: (hexBytes ((bytes.drop 4).take 2) ++
    '-' :: (hexBytes ((bytes.drop 6).take 2) ++ '-' :: (hexBytes ((bytes.drop 8).take 2) ++
      '-' :: hexBytes (bytes.drop 10))))

def generateUUID (buffer : Vector UInt8 16) : String :=
  let buffer := buffer.set 6 (buffer[6] &&& 0x0f ||| 0x40)
  let buffer := buffer.set 8 (buffer[8] &&& 0x3f ||| 0x80)
  String.ofList (uuidGroups buffer.toList)

theorem hexDigit_digitChar {n : Nat} (h : n < 16) :
    isHexDigit (Nat.digitChar n) = true ∧ (Nat.digitChar n).utf8Size = 1 := by
  have : ∀ n < 16, isHexDigit (Nat.digitChar n) = true ∧ (Nat.digitChar n).utf8Size = 1 := by
    decide
  exact this n h

/-- A group of hexadecimal digits with no hyphen due in it. -/
theorem looksLikeUUIDFrom_hexBytes {bytes : List UInt8} {index : Nat} {rest : List Char}
    (h : ∀ j < 2 * bytes.length, hyphenAt (index + j) = false) :
    looksLikeUUIDFrom index (hexBytes bytes ++ rest) =
      looksLikeUUIDFrom (index + 2 * bytes.length) rest := by
  induction bytes generalizing index with
  | nil => rfl
  | cons byte bytes ih =>
    have hbyte := byte.toNat_lt
    obtain ⟨hhigh, hhighSize⟩ := hexDigit_digitChar (n := byte.toNat / 16) (by omega)
    obtain ⟨hlow, hlowSize⟩ := hexDigit_digitChar (n := byte.toNat % 16) (by omega)
    have h₀ := h 0 (by simp)
    have h₁ := h 1 (by simp only [List.length_cons]; omega)
    have hlater : ∀ j < 2 * bytes.length, hyphenAt (index + 1 + 1 + j) = false := by
      intro j hj
      have := h (j + 2) (by simp only [List.length_cons]; omega)
      rwa [show index + 1 + 1 + j = index + (j + 2) by omega]
    have hrest := ih hlater
    simp only [hexBytes, List.flatMap_cons, hexByte, List.cons_append, List.nil_append,
      looksLikeUUIDFrom, hhighSize, hlowSize] at hrest ⊢
    rw [Nat.add_zero] at h₀
    simp only [h₀, h₁, Bool.false_eq_true, if_false, hhigh, hlow, Bool.true_and, hrest,
      List.length_cons]
    rw [show index + 1 + 1 + 2 * bytes.length = index + 2 * (bytes.length + 1) by omega]

theorem looksLikeUUIDFrom_hyphen {index : Nat} {rest : List Char} (h : hyphenAt index = true) :
    looksLikeUUIDFrom index ('-' :: rest) = looksLikeUUIDFrom (index + 1) rest := by
  simp [looksLikeUUIDFrom, h]
  rfl

theorem utf8ByteSize_ofList (chars : List Char) :
    (String.ofList chars).utf8ByteSize = (chars.map Char.utf8Size).sum := by
  induction chars with
  | nil => rfl
  | cons c chars ih =>
    rw [← List.singleton_append, String.ofList_append, String.utf8ByteSize_append, ih,
      ← String.singleton_eq_ofList, String.utf8ByteSize_singleton]
    simp

theorem sum_utf8Size_hexBytes (bytes : List UInt8) :
    ((hexBytes bytes).map Char.utf8Size).sum = 2 * bytes.length := by
  induction bytes with
  | nil => rfl
  | cons byte bytes ih =>
    have hbyte := byte.toNat_lt
    have hhigh := (hexDigit_digitChar (n := byte.toNat / 16) (by omega)).2
    have hlow := (hexDigit_digitChar (n := byte.toNat % 16) (by omega)).2
    simp only [hexBytes, List.flatMap_cons, List.map_append, List.sum_append] at ih ⊢
    rw [ih]
    simp only [hexByte, List.map_cons, List.map_nil, List.sum_cons, List.sum_nil, hhigh, hlow,
      List.length_cons]
    omega

theorem looksLikeUUID_generateUUID (buffer : Vector UInt8 16) :
    looksLikeUUID (generateUUID buffer) = true := by
  unfold generateUUID
  dsimp only
  generalize hbytes : (Vector.toList _ : List UInt8) = bytes
  have hlen : bytes.length = 16 := by simp [← hbytes]
  unfold looksLikeUUID
  rw [utf8ByteSize_ofList, String.toList_ofList]
  unfold uuidGroups
  simp only [List.map_append, List.map_cons, List.sum_append, List.sum_cons,
    sum_utf8Size_hexBytes, List.length_take, List.length_drop, hlen]
  rw [looksLikeUUIDFrom_hexBytes, looksLikeUUIDFrom_hyphen, looksLikeUUIDFrom_hexBytes,
    looksLikeUUIDFrom_hyphen, looksLikeUUIDFrom_hexBytes, looksLikeUUIDFrom_hyphen,
    looksLikeUUIDFrom_hexBytes, looksLikeUUIDFrom_hyphen, ← List.append_nil (hexBytes _),
    looksLikeUUIDFrom_hexBytes]
  · rfl
  all_goals simp only [List.length_take, List.length_drop, hlen]; decide

/-! ## Tokens -/

def agentTokenPrefix : String := "cfa"

def buildAgentToken (credentialID secret : String) : String :=
  agentTokenPrefix ++ "_" ++ credentialID ++ "_" ++ secret

/-- `strings.SplitN` for a separator of one character: at most `n` parts, the last one unsplit. -/
def splitN (sep : Char) : Nat → List Char → List (List Char)
  | 0, _ => []
  | 1, text => [text]
  | n + 2, text =>
    match text.dropWhile fun c => decide (c ≠ sep) with
    | [] => [text]
    | _ :: rest => text.takeWhile (fun c => decide (c ≠ sep)) :: splitN sep (n + 1) rest

/-- `none` is `ErrInvalidAgentToken`. -/
def parseAgentToken (token : String) : Option (String × String) :=
  match splitN '_' 3 token.toList with
  | [mark, credentialID, secret] =>
    if String.ofList mark ≠ agentTokenPrefix ∨
        looksLikeUUID (String.ofList credentialID) = false ∨
        trimSpace (String.ofList secret) = "" then none
    else some (String.ofList credentialID, String.ofList secret)
  | _ => none

theorem splitN_append {sep : Char} {n : Nat} {part rest : List Char} (h : sep ∉ part) :
    splitN sep (n + 2) (part ++ sep :: rest) = part :: splitN sep (n + 1) rest := by
  have hne : ∀ c ∈ part, decide (c ≠ sep) = true := by
    intro c hc
    exact decide_eq_true fun heq => h (heq ▸ hc)
  have hsep : ¬ (fun c => decide (c ≠ sep)) sep = true := by simp
  rw [splitN, List.dropWhile_append_of_pos hne, List.takeWhile_append_of_pos hne,
    List.dropWhile_cons_of_neg (a := sep) hsep, List.takeWhile_cons_of_neg (a := sep) hsep,
    List.append_nil]

/-- Nothing but hyphens and hexadecimal digits. -/
theorem underscore_notMem {value : String} (h : looksLikeUUID value = true) :
    '_' ∉ value.toList := by
  have hloop : ∀ chars index, looksLikeUUIDFrom index chars = true → '_' ∉ chars := by
    intro chars
    induction chars with
    | nil => intro _ _ hmem; cases hmem
    | cons c chars ih =>
      intro index hall hmem
      simp only [looksLikeUUIDFrom, Bool.and_eq_true] at hall
      rcases List.mem_cons.mp hmem with rfl | hmem
      · have hfirst := hall.1
        split at hfirst <;> exact absurd hfirst (by decide)
      · exact ih _ hall.2 hmem
  simp only [looksLikeUUID, Bool.and_eq_true] at h
  exact hloop _ _ h.2

/-- **The center reads back what an agent was given to present.** -/
theorem parseAgentToken_buildAgentToken {credentialID secret : String}
    (hid : looksLikeUUID credentialID = true) (hsecret : trimSpace secret ≠ "") :
    parseAgentToken (buildAgentToken credentialID secret) = some (credentialID, secret) := by
  have hchars : (buildAgentToken credentialID secret).toList =
      agentTokenPrefix.toList ++ '_' :: (credentialID.toList ++ '_' :: secret.toList) := by
    simp [buildAgentToken]
  have hsplit : splitN '_' 3 (buildAgentToken credentialID secret).toList =
      [agentTokenPrefix.toList, credentialID.toList, secret.toList] := by
    rw [hchars, splitN_append (by decide), splitN_append (underscore_notMem hid)]
    rfl
  unfold parseAgentToken
  rw [hsplit]
  dsimp only
  simp only [String.ofList_toList]
  rw [if_neg]
  simp [hid, hsecret]

/-- What an agent generates before it pairs. -/
structure Credential where
  credentialID : String
  secret : String
  uuid : looksLikeUUID credentialID = true
  nonblank : trimSpace secret ≠ ""

def Credential.token (c : Credential) : String := buildAgentToken c.credentialID c.secret

/-- `GenerateCredential`; its third result is `Credential.token`. -/
def generateCredential (id : Vector UInt8 16) (secret : Vector UInt8 32) : Credential where
  credentialID := generateUUID id
  secret := generateSecret secret
  uuid := looksLikeUUID_generateUUID id
  nonblank := generateSecret_ne secret

theorem Credential.parseAgentToken_token (c : Credential) :
    parseAgentToken c.token = some (c.credentialID, c.secret) :=
  parseAgentToken_buildAgentToken c.uuid c.nonblank

end Cfscan.Enrollment
