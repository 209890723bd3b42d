import Cfscan.Enrollment.RawToken

/-!
# What the access log tells of a pairing token — `internal/api/api.go`

A pairing token is a secret that stands in a path. The handlers trim and lower the path segment
before they look for a uuid in it, and `safeLogPath` looks for one in the segment as it is:
`log_paths` says when the log keeps the token to itself.

The handlers are forgiving where the log is not: a segment with a space around its token is a token
to the one and not to the other. Capital letters are no matter, both take them. The characterization
is over all byte strings and all three kinds of route, for the record of a request and for that of
an error.

Only the path is the subject. A query is not logged, and what a body holds is never read by the log.
-/

set_option autoImplicit false

namespace Cfscan.Enrollment.Raw

open Cfscan.Lib Cfscan.Lib.Utf8

def normalizePairingToken (letters : Letters) (value : Bytes) : Bytes :=
  letters.lower (trimSpace value)

/-- What a handler makes of its `{pairingToken}`; `none` is answered `enrollment_not_found`. -/
def pairingTokenOf (letters : Letters) (param : Bytes) : Option Bytes :=
  let pairingToken := normalizePairingToken letters param
  if looksLikeUUID pairingToken then some pairingToken else none

/-! ## Paths

The three routes with a token in their path. A parameter is one segment, so it has no slash;
otherwise it is any bytes, as the router decodes them. -/

/-- `/`. -/
def slash : UInt8 := 0x2f

def enrollmentsPath : Bytes := text "/api/v1/agent-enrollments/"

/-- The paths of the handlers that take an enrollment id begin with it. -/
def enrollmentIDPath : Bytes := enrollmentsPath ++ text "id/"

inductive PairingRoute where
  | get
  | approve
  | reject
deriving DecidableEq, Repr

def PairingRoute.suffix : PairingRoute → Bytes
  | .get => []
  | .approve => text "/approve"
  | .reject => text "/reject"

/-- The decoded path of a request with `param` for `{pairingToken}`. -/
def PairingRoute.path (route : PairingRoute) (param : Bytes) : Bytes :=
  enrollmentsPath ++ param ++ route.suffix

/-! ## The log -/

def safeLogPath (path : Bytes) : Bytes :=
  if enrollmentsPath <+: path then
    let rest := path.drop enrollmentsPath.length
    let first := (cut slash rest).1
    let suffix := (cut slash rest).2.1
    if looksLikeUUID first then
      if suffix = [] then enrollmentsPath ++ text "{pairingToken}"
      else enrollmentsPath ++ text "{pairingToken}/" ++ suffix
    else path
  else path

/-- The request as the logger sees it; `path` is `URL.Path`. -/
structure Request where
  method : Bytes
  path : Bytes

inductive Detail where
  | duration (nanoseconds : Int)
  | error (text : Bytes)

structure LogRecord where
  message : String
  method : Bytes
  path : Bytes
  detail : Detail

def accessLog (r : Request) (duration : Int) : LogRecord :=
  ⟨"http request", r.method, safeLogPath r.path, .duration duration⟩

/-- The record of `internalError`. -/
def internalError (r : Request) (err : Bytes) : LogRecord :=
  ⟨"request failed", r.method, safeLogPath r.path, .error err⟩

/-- Some part of the text is the token, in whatever letter case. -/
def Tells (letters : Letters) (text token : Bytes) : Prop :=
  ∃ part, part <:+: text ∧ letters.lower part = letters.lower token

/-! ## Lowering a uuid -/

section Lower

variable {letters : Letters} {s : Bytes}

theorem lowerByte_spec {b : UInt8} (h : b.toNat < 128) :
    hexByte (lowerByte b) = hexByte b ∧ (lowerByte b = hyphen ↔ b = hyphen) ∧
      (lowerByte b).toNat < 128 ∧ lowerByte (lowerByte b) = lowerByte b := by
  have hall : ∀ n < 128, hexByte (lowerByte (UInt8.ofNat n)) = hexByte (UInt8.ofNat n) ∧
      (lowerByte (UInt8.ofNat n) = hyphen ↔ UInt8.ofNat n = hyphen) ∧
      (lowerByte (UInt8.ofNat n)).toNat < 128 ∧
      lowerByte (lowerByte (UInt8.ofNat n)) = lowerByte (UInt8.ofNat n) := by decide +kernel
  simpa only [UInt8.ofNat_toNat] using hall b.toNat h

theorem ascii_of_looksLikeUUID (h : looksLikeUUID s = true) : ∀ b ∈ s, b.toNat < 128 := by
  intro b hb
  obtain ⟨j, hj⟩ := List.mem_iff_getElem?.mp hb
  have hbyte := (looksLikeUUID_bytes.mp h).2 j b hj
  split at hbyte
  · rw [decide_eq_true_eq.mp hbyte]
    decide
  · exact hexByte_lt hbyte

/-- No rune past ASCII has a lower case that a uuid may hold. -/
theorem ascii_of_lower (h : looksLikeUUID (letters.lower s) = true) : ∀ b ∈ s, b.toNat < 128 := by
  refine ascii_of_runes fun c hc => ?_
  have hsub : ∀ b ∈ encode (letters.toLower c), b ∈ letters.lower s := fun b hb =>
    List.mem_flatMap.mpr ⟨c, hc, hb⟩
  by_contra hle
  have hlow : (letters.toLower c).toNat < 128 := by
    by_contra hle'
    obtain ⟨b, hb⟩ := List.exists_mem_of_ne_nil _ (encode_ne_nil (letters.toLower c))
    exact absurd (ascii_of_looksLikeUUID h b (hsub b hb))
      (Nat.not_lt_of_le (le_of_mem_encode (Nat.le_of_not_lt hle') b hb))
  have hmem := hsub _ (by rw [encode_of_ascii hlow]; exact List.mem_singleton_self _)
  obtain ⟨j, hj⟩ := List.mem_iff_getElem?.mp hmem
  have hbyte := (looksLikeUUID_bytes.mp h).2 j _ hj
  rcases letters.toLower_of_le c (Nat.le_of_not_lt hle) hlow with ⟨-, hi⟩ | ⟨-, hk⟩
  · rw [hi] at hbyte
    split at hbyte <;> exact absurd hbyte (by decide)
  · rw [hk] at hbyte
    split at hbyte <;> exact absurd hbyte (by decide)

theorem looksLikeUUID_map (h : ∀ b ∈ s, b.toNat < 128) :
    looksLikeUUID (s.map lowerByte) = looksLikeUUID s := by
  rw [Bool.eq_iff_iff, looksLikeUUID_bytes, looksLikeUUID_bytes, List.length_map]
  refine and_congr_right fun _ => ?_
  constructor
  · intro hall j b hj
    obtain ⟨hhex, hhyphen, -, -⟩ := lowerByte_spec (h b (List.mem_of_getElem? hj))
    have hbyte := hall j (lowerByte b) (by rw [List.getElem?_map, hj, Option.map_some])
    simpa only [hhyphen, hhex] using hbyte
  · intro hall j b hj
    rw [List.getElem?_map, Option.map_eq_some_iff] at hj
    obtain ⟨b, hj, rfl⟩ := hj
    obtain ⟨hhex, hhyphen, -, -⟩ := lowerByte_spec (h b (List.mem_of_getElem? hj))
    simpa only [hhyphen, hhex] using hall j b hj

/-- Trying for a uuid does not depend on the letter case. -/
theorem looksLikeUUID_lower (letters : Letters) (s : Bytes) :
    looksLikeUUID (letters.lower s) = looksLikeUUID s := by
  rw [Bool.eq_iff_iff]
  constructor
  · intro h
    have hascii := ascii_of_lower h
    rwa [lower_of_ascii letters hascii, looksLikeUUID_map hascii] at h
  · intro h
    have hascii := ascii_of_looksLikeUUID h
    rwa [lower_of_ascii letters hascii, looksLikeUUID_map hascii]

theorem lower_lower (letters : Letters) (h : looksLikeUUID s = true) :
    letters.lower (letters.lower s) = letters.lower s := by
  have hascii := ascii_of_looksLikeUUID h
  rw [lower_of_ascii letters hascii, lower_of_ascii letters, List.map_map]
  · exact List.map_congr_left fun b hb => (lowerByte_spec (hascii b hb)).2.2.2
  · intro b hb
    obtain ⟨b, hmem, rfl⟩ := List.mem_map.mp hb
    exact (lowerByte_spec (hascii b hmem)).2.2.1

end Lower

/-! ## What is logged

`safeLogPath` cut at the first slash behind the prefix, and from that what it does to each
route. A redacted path has no part that looks like a uuid, so it cannot tell any token. -/

section Logged

variable {letters : Letters} {route : PairingRoute} {param token path : Bytes}

theorem safeLogPath_elsewhere (h : ¬ enrollmentsPath <+: path) : safeLogPath path = path :=
  if_neg h

/-- A path below the prefix is logged as it is, unless its first segment looks like a uuid. -/
theorem safeLogPath_below (rest : Bytes) : safeLogPath (enrollmentsPath ++ rest) =
    if looksLikeUUID (cut slash rest).1 then
      if (cut slash rest).2.1 = [] then enrollmentsPath ++ text "{pairingToken}"
      else enrollmentsPath ++ text "{pairingToken}/" ++ (cut slash rest).2.1
    else enrollmentsPath ++ rest := by
  unfold safeLogPath
  rw [if_pos (List.prefix_append _ _), List.drop_left]

theorem safeLogPath_of_id (h : enrollmentIDPath <+: path) : safeLogPath path = path := by
  obtain ⟨rest, rfl⟩ := h
  have hcut : cut slash (text "id/" ++ rest) = (text "id", rest, true) :=
    @cut_append slash (text "id") rest (by decide)
  rw [enrollmentIDPath, List.append_assoc, safeLogPath_below, hcut]
  rfl

/-- What stands for the token in the log. -/
def PairingRoute.redacted (route : PairingRoute) : Bytes := route.path (text "{pairingToken}")

theorem PairingRoute.cut_path (route : PairingRoute) (h : slash ∉ param) :
    (cut slash (param ++ route.suffix)).1 = param ∧
      (cut slash (param ++ route.suffix)).2.1 = route.suffix.drop 1 := by
  cases route with
  | get => simp [PairingRoute.suffix, cut_of_notMem h]
  | approve =>
    have hsuffix : PairingRoute.approve.suffix = slash :: text "approve" := by decide
    simp [hsuffix, cut_append h]
  | reject =>
    have hsuffix : PairingRoute.reject.suffix = slash :: text "reject" := by decide
    simp [hsuffix, cut_append h]

theorem safeLogPath_route (route : PairingRoute) (h : slash ∉ param) :
    safeLogPath (route.path param) =
      if looksLikeUUID param then route.redacted else route.path param := by
  obtain ⟨hfirst, hsuffix⟩ := route.cut_path h
  rw [PairingRoute.path, List.append_assoc, safeLogPath_below, hfirst, hsuffix]
  cases route <;> rfl

/-- No 36 bytes of a redacted path look like a uuid. -/
theorem PairingRoute.redacted_clean (route : PairingRoute) {part : Bytes}
    (h : part <:+: route.redacted) : looksLikeUUID part = false := by
  have hwindows : ∀ k ≤ 48, looksLikeUUID ((route.redacted.drop k).take 36) = false := by
    cases route <;> decide +kernel
  obtain ⟨before, after, heq⟩ := h
  by_contra hne
  have hlong : part.length = 36 := (looksLikeUUID_bytes.mp (by simpa using hne)).1
  have htotal : before.length ≤ 48 := by
    have hlen := congrArg List.length heq
    have hroute : route.redacted.length ≤ 48 := by cases route <;> decide
    simp only [List.length_append] at hlen
    omega
  have hpart : (route.redacted.drop before.length).take 36 = part := by
    rw [← heq, List.append_assoc, List.drop_left, ← hlong, List.take_left]
  exact hne (hpart ▸ hwindows _ htotal)

theorem pairingTokenOf_eq_some : pairingTokenOf letters param = some token ↔
    token = letters.lower (trimSpace param) ∧ looksLikeUUID (trimSpace param) = true := by
  unfold pairingTokenOf normalizePairingToken
  dsimp only
  rw [looksLikeUUID_lower]
  split
  · rename_i huuid
    rw [Option.some.injEq]
    exact ⟨fun h => ⟨h.symm, huuid⟩, fun h => h.1.symm⟩
  · rename_i huuid
    constructor
    · intro h
      cases h
    · rintro ⟨-, h⟩
      exact absurd h huuid

/-- A segment with space around its token is not recognised, and logged with it. -/
theorem tells_path (h : pairingTokenOf letters param = some token) :
    Tells letters (route.path param) token := by
  obtain ⟨rfl, huuid⟩ := pairingTokenOf_eq_some.mp h
  refine ⟨trimSpace param, ?_, (lower_lower letters huuid).symm⟩
  exact (trim_within _ param).trans ⟨enrollmentsPath, route.suffix, rfl⟩

/-- **The log keeps a token to itself when its segment has no space to trim.** -/
theorem not_tells_iff (hslash : slash ∉ param) (h : pairingTokenOf letters param = some token) :
    ¬ Tells letters (safeLogPath (route.path param)) token ↔ trimSpace param = param := by
  obtain ⟨rfl, huuid⟩ := pairingTokenOf_eq_some.mp h
  rw [safeLogPath_route route hslash]
  constructor
  · intro htells
    by_contra htrim
    refine htells ?_
    rw [if_neg]
    · exact tells_path h
    · -- both have 36 bytes, and the one is part of the other
      intro hparam
      have hlen := (looksLikeUUID_bytes.mp huuid).1.trans (looksLikeUUID_bytes.mp hparam).1.symm
      exact htrim ((trim_within _ param).eq_of_length hlen)
  · intro htrim
    rw [htrim] at huuid ⊢
    rw [if_pos huuid]
    rintro ⟨part, hpart, hlower⟩
    have hsame := congrArg looksLikeUUID hlower
    rw [looksLikeUUID_lower, looksLikeUUID_lower, looksLikeUUID_lower, huuid,
      route.redacted_clean hpart] at hsame
    cases hsame

end Logged

/-- **Pairing tokens and the access log.** Of a request whose path carries a pairing token neither
record tells the token, exactly when its segment has no space to trim. Paths elsewhere and those
of enrollment ids are logged unchanged. -/
theorem log_paths (letters : Letters) (r : Request) (duration : Int) (err : Bytes) :
    (∀ (route : PairingRoute) (param token : Bytes), r.path = route.path param → slash ∉ param →
      pairingTokenOf letters param = some token →
      (¬ Tells letters (accessLog r duration).path token ∧
        ¬ Tells letters (internalError r err).path token ↔ trimSpace param = param)) ∧
    (¬ enrollmentsPath <+: r.path ∨ enrollmentIDPath <+: r.path →
      (accessLog r duration).path = r.path ∧ (internalError r err).path = r.path) := by
  constructor
  · intro route param token hpath hslash htoken
    change ¬ Tells letters (safeLogPath r.path) token ∧
      ¬ Tells letters (safeLogPath r.path) token ↔ _
    rw [and_self, hpath]
    exact not_tells_iff hslash htoken
  · rintro (hother | hid)
    · exact ⟨safeLogPath_elsewhere hother, safeLogPath_elsewhere hother⟩
    · exact ⟨safeLogPath_of_id hid, safeLogPath_of_id hid⟩

def exampleToken : Bytes := text "8b8f3bf4-5ea2-49e0-b07e-087f69973223"

theorem log_paths_trimmed :
    ¬ Tells .ascii (accessLog ⟨text "GET", PairingRoute.get.path exampleToken⟩ 0).path
        exampleToken ∧
      ¬ Tells .ascii (internalError ⟨text "GET", PairingRoute.get.path exampleToken⟩ []).path
        exampleToken ↔
    trimSpace exampleToken = exampleToken :=
  (log_paths .ascii ⟨text "GET", PairingRoute.get.path exampleToken⟩ 0 []).1 .get exampleToken
    exampleToken rfl (by decide) (by decide +kernel)

/-- `GET /api/v1/agent-enrollments/%208b8f3bf4-5ea2-49e0-b07e-087f69973223`. -/
theorem token_logged :
    slash ∉ text " " ++ exampleToken ∧
      pairingTokenOf .ascii (text " " ++ exampleToken) = some exampleToken ∧
      Tells .ascii
        (accessLog ⟨text "GET", PairingRoute.get.path (text " " ++ exampleToken)⟩ 0).path
        exampleToken :=
  ⟨by decide, by decide +kernel, exampleToken, by decide +kernel, rfl⟩

end Cfscan.Enrollment.Raw
