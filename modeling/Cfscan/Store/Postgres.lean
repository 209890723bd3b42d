import Cfscan.Lib.Table

/-!
# What the store asks of PostgreSQL and of Go's `strings`

Values as the statements of `internal/store/postgres` see them: uuids, timestamps, `inet` and
`cidr` addresses, the texts and integers a column accepts, and the errors a call can end with.

The input functions of `uuid`, `inet` and `cidr` belong to the server and are not in the
repository. They are the fields of `Postgres`, with the two facts the store relies on: what
`host()` or a `::text` cast prints is read back as the same address.

A value that a column refuses is an error of the whole statement. Which values these are is
`storable` for a text, which may have no NUL, and the ranges of `integer` and `bigint`; a text the
server does not read as a uuid or an address is refused by the cast. The text of such an error is
not modelled beyond the context the store puts in front of it (`StoreError.db`).
-/

set_option autoImplicit false

namespace Cfscan.Store

/-- A `uuid` value. Ids are compared as values, whatever spelling the text they came from had. -/
abbrev UUID := Nat

/-- A `timestamptz`, in microseconds. -/
abbrev Timestamp := Int

/-- `INTERVAL '1 minute'`. -/
def minute : Timestamp := 60 * 1000000

/-- An `inet` value: the address, by the text `host()` prints for it, and its netmask when it is
not that of a single host. -/
structure Inet where
  host : String
  netmask : Option Nat
deriving DecidableEq, Repr

/-- A `cidr` value, by its `::text`. -/
structure Cidr where
  text : String
deriving DecidableEq, Repr

structure Postgres where
  /-- `$1::uuid`; `none` is the error of a malformed text. -/
  uuid : String → Option UUID
  /-- `$1::inet`. -/
  inet : String → Option Inet
  /-- `$1::cidr`. -/
  cidr : String → Option Cidr
  /-- `host()` prints an address without its netmask, and `inet` reads it as that host. -/
  inet_host : ∀ text ip, inet text = some ip → inet ip.host = some ⟨ip.host, none⟩
  /-- `cidr` reads back what it printed, which is never the empty text. -/
  cidr_text : ∀ text prefixes, cidr text = some prefixes →
    cidr prefixes.text = some prefixes ∧ prefixes.text ≠ ""

theorem cidr_text_of_none (_ : String) (prefixes : Cidr) (h : (none : Option Cidr) = some prefixes) :
    (none : Option Cidr) = some prefixes ∧ prefixes.text ≠ "" := by
  cases h

/-- A server that reads uuids and no addresses. -/
def Postgres.withoutAddresses (uuid : String → Option UUID) : Postgres where
  uuid := uuid
  inet := fun _ => none
  cidr := fun _ => none
  inet_host := by
    intro text ip h
    cases h
  cidr_text := cidr_text_of_none

/-- PostgreSQL stores no NUL character in a `text` column. -/
def storable (text : String) : Bool := text.toList.all fun c => decide (c ≠ Char.ofNat 0)

/-- The range of an `integer` column. -/
def int4 (value : Int) : Bool := decide (-2147483648 ≤ value) && decide (value ≤ 2147483647)

/-- Why the database refused a statement. -/
inductive DbError where
  | noRows
  | castFailed
  | valueRefused
  | uniqueViolation
  | foreignKeyViolation
  | checkViolation
deriving DecidableEq, Repr

/-- How a store call fails: one of the sentinels of `store/enrollment.go`, a database error under
the context `fmt.Errorf` wraps it in, or a message of the call's own. -/
inductive StoreError where
  | notFound
  | enrollmentPending
  | enrollmentExpired
  | enrollmentRejected
  | enrollmentRevoked
  | enrollmentClaimed
  | enrollmentConflict
  | invalidAgentCredential
  | db (context : String) (cause : DbError)
  | message (text : String)
deriving DecidableEq, Repr

/-! ## Go's `strings`

On texts that are valid UTF-8, as everything that has come through the server is. A text
that need not be is a list of bytes, and its functions are in `Lib.Utf8`. -/

/-- `unicode.IsSpace`. -/
def isSpace (c : Char) : Bool :=
  (decide (0x09 ≤ c.toNat) && decide (c.toNat ≤ 0x0d)) || decide (c.toNat = 0x20) ||
    decide (c.toNat = 0x85) || decide (c.toNat = 0xa0) || decide (c.toNat = 0x1680) ||
    (decide (0x2000 ≤ c.toNat) && decide (c.toNat ≤ 0x200a)) || decide (c.toNat = 0x2028) ||
    decide (c.toNat = 0x2029) || decide (c.toNat = 0x202f) || decide (c.toNat = 0x205f) ||
    decide (c.toNat = 0x3000)

/-- `strings.TrimSpace`. -/
def trimSpace (text : String) : String :=
  String.ofList (((text.toList.dropWhile isSpace).reverse.dropWhile isSpace).reverse)

/-- `truncate`: the first `limit` bytes. A cut inside a character leaves bytes that are not
UTF-8, which the server refuses as a text parameter: `none`. -/
def truncate (value : String) (limit : Nat) : Option String :=
  if value.utf8ByteSize ≤ limit then some value
  else String.fromUTF8? (value.toUTF8.extract 0 limit)

end Cfscan.Store
