import Mathlib.Data.List.AList
import Iec61850.Outcome

/-! Session protocol data units: decoding a datagram aborts in one place only. -/
namespace Iec61850.RSession

inductive Error where
  | malformed (text : String)
  | version (v : UInt16)
  | unknownKey (id : UInt32)
  | algorithm (text : String)
  | authentication (text : String)
  | unsecured
  | replay (text : String)
  | noActiveKey
  | version1Encrypt
  | keyId
  | keyAlgorithm
  | keyUnsupported (text : String)
  | keyLength (text : String)
  | keyCombination
  | noSuchKey (id : UInt32)
deriving DecidableEq

/-- The encryption algorithm of a key; in protocol version 1 its code is carried on the wire. -/
structure SecAlgorithm where
  code : UInt8
deriving DecidableEq

namespace SecAlgorithm

def none : SecAlgorithm := ⟨0⟩
def aes128Gcm : SecAlgorithm := ⟨1⟩
def aes256Gcm : SecAlgorithm := ⟨2⟩

def keyLen (a : SecAlgorithm) : ℕ :=
  if a = aes128Gcm then 16 else if a = aes256Gcm then 32 else 0

def display (a : SecAlgorithm) : String :=
  if a = none then "none"
  else if a = aes128Gcm then "AES-128-GCM"
  else if a = aes256Gcm then "AES-256-GCM"
  else s!"SecAlgorithm({a.code})"

end SecAlgorithm

structure SigAlgorithm where
  code : UInt8
deriving DecidableEq

namespace SigAlgorithm

def none : SigAlgorithm := ⟨0⟩
def hmacSha256_80 : SigAlgorithm := ⟨1⟩
def hmacSha256_128 : SigAlgorithm := ⟨2⟩
def hmacSha256_256 : SigAlgorithm := ⟨3⟩
def aesGmac64 : SigAlgorithm := ⟨4⟩
def aesGmac128 : SigAlgorithm := ⟨5⟩
def hmacSha3_80 : SigAlgorithm := ⟨6⟩
def hmacSha3_128 : SigAlgorithm := ⟨7⟩
def hmacSha3_256 : SigAlgorithm := ⟨8⟩

def macLen (a : SigAlgorithm) : ℕ :=
  if a = hmacSha256_80 ∨ a = hmacSha3_80 then 10
  else if a = hmacSha256_128 ∨ a = hmacSha3_128 then 16
  else if a = hmacSha256_256 ∨ a = hmacSha3_256 then 32
  else 0

def isSha3 (a : SigAlgorithm) : Bool :=
  a = hmacSha3_80 || a = hmacSha3_128 || a = hmacSha3_256

def display (a : SigAlgorithm) : String :=
  if a = none then "none"
  else if a = hmacSha256_80 then "HMAC-SHA256-80"
  else if a = hmacSha256_128 then "HMAC-SHA256-128"
  else if a = hmacSha256_256 then "HMAC-SHA256-256"
  else if a = aesGmac64 then "AES-GMAC-64"
  else if a = aesGmac128 then "AES-GMAC-128"
  else if a = hmacSha3_80 then "HMAC-SHA3-80"
  else if a = hmacSha3_128 then "HMAC-SHA3-128"
  else if a = hmacSha3_256 then "HMAC-SHA3-256"
  else s!"SigAlgorithm({a.code})"

end SigAlgorithm

def minHmacKey : ℕ := 16

/-- The key material of one security association. Identifier 0 is reserved for "no key". -/
structure Key where
  id : UInt32
  material : List UInt8
  sec : SecAlgorithm
  sig : SigAlgorithm
  timeOfCurrentKey : UInt32
  timeToNextKey : Int16

def Key.validate (k : Key) : Except Error Unit :=
  if k.id = 0 then .error .keyId
  else if k.sec = .none ∧ k.sig = .none then .error .keyAlgorithm
  else if k.sec ≠ .none ∧ k.sig ≠ .none then .error .keyCombination
  else if k.sec ≠ .none then
    let n := k.sec.keyLen
    let have_ := k.material.length
    if n = 0 then .error (.keyUnsupported k.sec.display)
    else if have_ ≠ n then .error (.keyLength (k.sec.display ++ s!" needs {n} octets, have {have_}"))
    else .ok ()
  else
    let have_ := k.material.length
    if k.sig.macLen = 0 then .error (.keyUnsupported k.sig.display)
    else if have_ < minHmacKey then
      .error (.keyLength (k.sig.display ++ s!" needs at least {minHmacKey} octets, have {have_}"))
    else .ok ()

lemma Key.validate_id {k : Key} (h : k.validate = .ok ()) : k.id ≠ 0 := by
  intro hid
  simp [validate, hid] at h

/-- The keys a receiver accepts, and the one a sender uses. A key enters the map only through `add`, which
validates it and files it under its own identifier. -/
structure KeyStore where
  keys : AList (fun _ : UInt32 => Key)
  active : UInt32
  valid : ∀ id k, keys.lookup id = some k → k.validate = .ok () ∧ k.id = id

namespace KeyStore

def empty : KeyStore := ⟨∅, 0, fun id k h => by simp at h⟩

def add (s : KeyStore) (k : Key) : Except Error KeyStore :=
  match hv : k.validate with
  | .error e => .error e
  | .ok () => .ok
      { s with
        keys := s.keys.insert k.id k
        valid := by
          intro id k' h
          by_cases hid : id = k.id
          · subst hid
            rw [AList.lookup_insert, Option.some.injEq] at h
            exact h ▸ ⟨hv, rfl⟩
          · rw [AList.lookup_insert_ne hid] at h
            exact s.valid id k' h }

def withKeys (keys : List Key) : Except Error KeyStore := do
  let s ← keys.foldlM add empty
  match keys with
  | [] => .ok s
  | k :: _ => .ok { s with active := k.id }

def lookup (s : KeyStore) (id : UInt32) : Option Key := s.keys.lookup id

lemma lookup_id_ne_zero {s : KeyStore} {id : UInt32} {k : Key} (h : s.lookup id = some k) : id ≠ 0 := by
  obtain ⟨hv, hid⟩ := s.valid id k h
  exact hid ▸ Key.validate_id hv

end KeyStore

open Outcome

/-- AES-GCM and the HMACs. `gcmOpen wide key nonce aad sealed` opens with AES-256 when `wide`, and is `none`
when the tag does not verify. -/
structure Crypto where
  gcmOpen : Bool → List UInt8 → List UInt8 → List UInt8 → List UInt8 → Option (List UInt8)
  hmacSha256 : List UInt8 → List UInt8 → List UInt8
  hmacSha3 : List UInt8 → List UInt8 → List UInt8

structure Payload where
  kind : UInt8
  simulation : Bool
  appId : UInt16
  apdu : List UInt8
deriving DecidableEq

structure Spdu where
  si : UInt8 := 0
  number : UInt32 := 0
  version : UInt16 := 0
  keyId : UInt32 := 0
  timeOfCurrentKey : UInt32 := 0
  timeToNextKey : Int16 := 0
  payloads : List Payload := []
  signed : Bool := false
  encrypted : Bool := false
deriving DecidableEq

def cltpLi : UInt8 := 0x01
def cltpUd : UInt8 := 0x40
def tagCommon : UInt8 := 0x80
def tagSignature : UInt8 := 0x85
def tagPadding : UInt8 := 0xaf
def elementHeader : ℕ := 6
def gcmIvLen : ℕ := 12
def gcmTagLen : ℕ := 16

def be16 (a b : UInt8) : UInt16 := UInt16.ofNat (a.toNat * 256 + b.toNat)

def be32 (a b c d : UInt8) : UInt32 :=
  UInt32.ofNat (((a.toNat * 256 + b.toNat) * 256 + c.toNat) * 256 + d.toNat)

/-- Reads big-endian fields, recording a read past the end instead of aborting. -/
structure Reader where
  b : List UInt8
  off : ℕ := 0
  short : Bool := false

namespace Reader

def bytes (r : Reader) (n : ℕ) : Outcome Error (List UInt8 × Reader) :=
  if r.short then .ok ([], r)
  else do
    let left ← sub r.b.length r.off
    if left < n then .ok ([], { r with short := true })
    else do
      let v ← slice r.b r.off (r.off + n)
      .ok (v, { r with off := r.off + n })

def u8 (r : Reader) : Outcome Error (UInt8 × Reader) := do
  let (v, r) ← r.bytes 1
  .ok (v.headD 0, r)

def u16 (r : Reader) : Outcome Error (UInt16 × Reader) := do
  let (v, r) ← r.bytes 2
  match v with
  | [a, b] => .ok (be16 a b, r)
  | _ => .ok (0, r)

def u32 (r : Reader) : Outcome Error (UInt32 × Reader) := do
  let (v, r) ← r.bytes 4
  match v with
  | [a, b, c, d] => .ok (be32 a b c d, r)
  | _ => .ok (0, r)

end Reader

def readHeader (b : List UInt8) : Outcome Error (Spdu × Reader) := do
  let (li, r) ← Reader.u8 { b }
  if li ≠ cltpLi then .error (.malformed "not a connectionless transport unit") else
  let (ud, r) ← r.u8
  if ud ≠ cltpUd then .error (.malformed "not a connectionless transport unit") else
  let (si, r) ← r.u8
  let (_, r) ← r.u8 -- session header length
  let (tag, r) ← r.u8
  if tag ≠ tagCommon then .error (.malformed "no common session header") else
  let (_, r) ← r.u8 -- common header length
  let (_, r) ← r.u32 -- SPDU length
  let (number, r) ← r.u32
  let (version, r) ← r.u16
  let (tock, r) ← r.u32
  let (ttnk, r) ← r.u16
  if r.short then .error (.malformed "truncated session header")
  else .ok ({ si, number, version, timeOfCurrentKey := tock, timeToNextKey := ttnk.toInt16 }, r)

def lookupKey (keys : Option KeyStore) (id : UInt32) : Outcome Error Key :=
  match keys.bind (·.lookup id) with
  | some k => .ok k
  | none => .error (.unknownKey id)

def algorithmText (sec : SecAlgorithm) (sig : SigAlgorithm) (keyId : UInt32) (k : Key) : String :=
  "SPDU declares " ++ sec.display ++ "/" ++ sig.display ++ s!", key {keyId} is " ++ k.sec.display ++ "/"
    ++ k.sig.display

def readSecurity1 (keys : Option KeyStore) (r : Reader) :
    Outcome Error (UInt32 × Option Key × List UInt8 × Reader) := do
  let (sec, r) ← r.u8
  let (sig, r) ← r.u8
  let sec : SecAlgorithm := ⟨sec⟩
  let sig : SigAlgorithm := ⟨sig⟩
  let (keyId, r) ← r.u32
  if r.short then .error (.malformed "truncated security information")
  else if keyId = 0 then
    if sec ≠ .none ∨ sig ≠ .none then .error (.malformed "algorithms without a key")
    else .ok (keyId, none, [], r)
  else do
    let k ← lookupKey keys keyId
    -- The declared algorithms must be the key's.
    if sec ≠ k.sec ∨ sig ≠ k.sig then .error (.algorithm (algorithmText sec sig keyId k))
    else .ok (keyId, some k, [], r)

def readSecurity2 (keys : Option KeyStore) (r : Reader) :
    Outcome Error (UInt32 × Option Key × List UInt8 × Reader) := do
  let (keyId, r) ← r.u32
  let (ivLen, r) ← r.u8
  let (iv, r) ← r.bytes ivLen.toNat
  if r.short then .error (.malformed "truncated security information")
  else if keyId = 0 then .ok (keyId, none, iv, r)
  else do
    let k ← lookupKey keys keyId
    if k.sec ≠ .none ∧ ivLen.toNat ≠ gcmIvLen then
      .error (.malformed s!"{ivLen}-octet initialisation vector, GCM uses {gcmIvLen}")
    else .ok (keyId, some k, iv, r)

def readSecurity (keys : Option KeyStore) (s : Spdu) (r : Reader) :
    Outcome Error (UInt32 × Option Key × List UInt8 × Reader) :=
  if s.version = 1 then readSecurity1 keys r
  else if s.version = 2 then readSecurity2 keys r
  else .error (.version s.version)

def fullMac (c : Crypto) (key : Key) (data : List UInt8) : List UInt8 :=
  if key.sig.isSha3 then c.hmacSha3 key.material data else c.hmacSha256 key.material data

def computeMac (c : Crypto) (key : Key) (data : List UInt8) : List UInt8 :=
  (fullMac c key data).take key.sig.macLen

def verifyMac (c : Crypto) (key : Key) (data tag : List UInt8) : Bool :=
  let want := computeMac c key data
  want.length == tag.length && (want.zip tag).foldl (fun acc p => acc ||| (p.1 ^^^ p.2)) 0 == 0

/-- Opens the sealed user data. Taking the nonce from a slice of another length aborts. -/
def gcmOpen (c : Crypto) (k : Key) (iv sealedData aad : List UInt8) : Outcome Error (List UInt8) :=
  if iv.length ≠ gcmIvLen then .panic
  else
    let wide := decide (k.sec ≠ .aes128Gcm)
    if k.material.length ≠ (if wide then 32 else 16) then .error (.keyLength "Invalid Length")
    else
      match c.gcmOpen wide k.material iv aad sealedData with
      | some plain => .ok plain
      | none => .error (.authentication "GCM tag does not verify")

def skipPadding (trailer : List UInt8) : Outcome Error (List UInt8) :=
  match trailer with
  | tag :: len :: _ =>
    if tag = tagPadding then
      let n := 2 + len.toNat
      if trailer.length < n then .error (.malformed "truncated padding")
      else slice trailer n trailer.length
    else .ok trailer
  | _ => .ok trailer

def readTrailer (trailer : List UInt8) : Outcome Error (List UInt8) :=
  match trailer with
  | tag :: len :: _ =>
    if tag ≠ tagSignature then .error (.authentication "no signature trailer")
    else
      let n := len.toNat
      if trailer.length < 2 + n then .error (.malformed "truncated signature")
      else slice trailer 2 (2 + n)
  | _ => .error (.authentication "no signature trailer")

/-- Verifies the SPDU under its key and returns the user data, decrypted when the key encrypts. -/
def openUser (c : Crypto) (b : List UInt8) (k : Key) (iv user : List UInt8) (userStart userEnd : ℕ) :
    Outcome Error (List UInt8) := do
  let trailer ← slice b userEnd b.length
  let trailer ← skipPadding trailer
  let sigPos ← sub b.length trailer.length
  let tag ← readTrailer trailer
  let n := tag.length
  if k.sec ≠ .none then
    if n ≠ gcmTagLen then .error (.authentication s!"{n}-octet GCM tag")
    else do
      let aad ← slice b 0 userStart
      (gcmOpen c k iv (user ++ tag) aad).mapError fun _ => .authentication "GCM tag does not verify"
  else
    let want := k.sig.macLen
    if n ≠ want then .error (.authentication (s!"{n}-octet MAC, " ++ k.sig.display ++ s!" is {want}"))
    else do
      let covered ← slice b 0 sigPos
      if verifyMac c k covered tag then .ok user else .error (.authentication "MAC does not verify")

/-- The payload elements of the user data from `off` on. The length of the user data bounds the rounds. -/
def readPayloads (user : List UInt8) : ℕ → ℕ → List Payload → Outcome Error (List Payload)
  | 0, _, _ => .panic
  | rounds + 1, off, acc =>
    if off < user.length then do
      let left ← sub user.length off
      if left < elementHeader then .error (.malformed "truncated payload element")
      else do
        let h ← slice user off (off + elementHeader)
        match h with
        | [kind, sim, id0, id1, len0, len1] => do
          let n := (be16 len0 len1).toNat
          let off := off + elementHeader
          let rest ← sub user.length off
          if rest < n ∧ n ≠ rest + 2 then
            .error (.malformed s!"APDU of {n} octets, {rest} remain")
          else do
            -- libiec61850 counts the length field itself, so two octets too many are let pass.
            let n := min n rest
            let apdu ← slice user off (off + n)
            let p : Payload := { kind, simulation := decide (sim ≠ 0), appId := be16 id0 id1, apdu }
            readPayloads user rounds (off + n) (acc ++ [p])
        | _ => .panic
    else .ok acc

def readUser (c : Crypto) (b : List UInt8) (key : Option Key) (iv : List UInt8) (r : Reader) :
    Outcome Error (List UInt8) := do
  let (ul, r) ← r.u32
  let ul := ul.toNat
  if r.short then .error (.malformed s!"payload length {ul} exceeds the SPDU") else
  let left ← sub b.length r.off
  if left < ul then .error (.malformed s!"payload length {ul} exceeds the SPDU") else
  let userStart := r.off
  let userEnd := userStart + ul
  let user ← slice b userStart userEnd
  match key with
  | none =>
    -- A trailer here is a secured SPDU whose key identifier was cleared.
    let extra := b.length - userEnd
    if userEnd ≠ b.length then
      .error (.malformed s!"{extra} octets after the user data of an unsecured SPDU")
    else .ok user
  | some k => openUser c b k iv user userStart userEnd

def unmarshal (c : Crypto) (b : List UInt8) (keys : Option KeyStore) : Outcome Error Spdu := do
  let (s, r) ← readHeader b
  let (keyId, key, iv, r) ← readSecurity keys s r
  let user ← readUser c b key iv r
  let payloads ← readPayloads user (user.length + 1) 0 []
  .ok { s with
    keyId, payloads
    signed := key.any (·.sec = .none)
    encrypted := key.any (·.sec ≠ .none) }

open Outcome List

def octet (b : List UInt8) (i : ℕ) : UInt8 := b.getD i 0

def half (b : List UInt8) (i : ℕ) : UInt16 := be16 (octet b i) (octet b (i + 1))

def word (b : List UInt8) (i : ℕ) : UInt32 :=
  be32 (octet b i) (octet b (i + 1)) (octet b (i + 2)) (octet b (i + 3))

variable {b : List UInt8}

lemma drop_eq_octet_cons {i : ℕ} (h : i < b.length) : b.drop i = octet b i :: b.drop (i + 1) := by
  rw [drop_eq_getElem_cons h, octet, getD_eq_getElem?_getD, getElem?_eq_getElem h, Option.getD_some]

namespace Reader

/-- A read takes its octets at the offset and moves past them, or marks the reader short. -/
structure Reads (r : Reader) (n : ℕ) (r' : Reader) : Prop where
  b_eq : r'.b = r.b
  off_le : r'.off ≤ r'.b.length
  off_eq : r'.short = false → r.short = false ∧ r'.off = r.off + n

variable {r r' : Reader} {n : ℕ}

lemma Reads.trans {r'' : Reader} {k : ℕ} (h : Reads r n r') (h' : Reads r' k r'') : Reads r (n + k) r'' := by
  refine ⟨h'.b_eq.trans h.b_eq, h'.off_le, fun hsh => ?_⟩
  obtain ⟨hmid, hoff'⟩ := h'.off_eq hsh
  obtain ⟨hfst, hoff⟩ := h.off_eq hmid
  exact ⟨hfst, by omega⟩

variable {off : ℕ}

/-- A reader that did not run short had all its octets. -/
theorem Reads.le (h : Reads ⟨b, off, false⟩ n r') (hsh : r'.short = false) : off + n ≤ b.length := by
  have hle := h.off_le
  rwa [h.b_eq, (h.off_eq hsh).2] at hle

lemma bytes_of_short (b : List UInt8) (off n : ℕ) : bytes ⟨b, off, true⟩ n = .ok ([], ⟨b, off, true⟩) := rfl

lemma bytes_of_le (h : off + n ≤ b.length) :
    bytes ⟨b, off, false⟩ n = .ok ((b.drop off).take n, ⟨b, off + n, false⟩) := by
  have hleft : ¬ b.length - off < n := by omega
  simp only [bytes, Bool.false_eq_true, if_false, sub_of_le (show off ≤ b.length by omega),
    ok_bind, hleft, slice_of_le (show off ≤ off + n by omega) h,
    Nat.add_sub_cancel_left]

lemma bytes_of_lt (hoff : off ≤ b.length) (h : b.length < off + n) :
    bytes ⟨b, off, false⟩ n = .ok ([], ⟨b, off, true⟩) := by
  have hleft : b.length - off < n := by omega
  simp only [bytes, Bool.false_eq_true, if_false, sub_of_le hoff, ok_bind, hleft, if_true]

section
variable (h : r.off ≤ r.b.length)
include h

lemma bytes_reads (n : ℕ) : ∃ v r', r.bytes n = .ok (v, r') ∧ Reads r n r' ∧ (r'.short = false → v.length = n) := by
  obtain ⟨b, off, short⟩ := r
  cases short with
  | true => exact ⟨_, _, bytes_of_short b off n, ⟨rfl, h, by simp⟩, by simp⟩
  | false =>
    by_cases hn : off + n ≤ b.length
    · refine ⟨_, _, bytes_of_le hn, ⟨rfl, hn, fun _ => ⟨rfl, rfl⟩⟩, fun _ => ?_⟩
      rw [length_take, length_drop]
      omega
    · exact ⟨_, _, bytes_of_lt h (by omega), ⟨rfl, h, by simp⟩, by simp⟩

lemma u8_reads : ∃ v r', r.u8 = .ok (v, r') ∧ Reads r 1 r' := by
  obtain ⟨v, r', hv, hr, -⟩ := bytes_reads h 1
  exact ⟨_, r', by rw [u8, hv]; rfl, hr⟩

lemma u16_reads : ∃ v r', r.u16 = .ok (v, r') ∧ Reads r 2 r' := by
  obtain ⟨v, r', hv, hr, -⟩ := bytes_reads h 2
  rw [u16, hv, ok_bind]
  dsimp only
  split <;> exact ⟨_, r', rfl, hr⟩

lemma u32_reads : ∃ v r', r.u32 = .ok (v, r') ∧ Reads r 4 r' := by
  obtain ⟨v, r', hv, hr, -⟩ := bytes_reads h 4
  rw [u32, hv, ok_bind]
  dsimp only
  split <;> exact ⟨_, r', rfl, hr⟩

end

lemma u8_of_le (h : off + 1 ≤ b.length) : u8 ⟨b, off, false⟩ = .ok (octet b off, ⟨b, off + 1, false⟩) := by
  rw [u8, bytes_of_le h, drop_eq_octet_cons (by omega)]
  rfl

lemma u16_of_le (h : off + 2 ≤ b.length) : u16 ⟨b, off, false⟩ = .ok (half b off, ⟨b, off + 2, false⟩) := by
  rw [u16, bytes_of_le h, drop_eq_octet_cons (by omega), drop_eq_octet_cons (by omega)]
  rfl

lemma u32_of_le (h : off + 4 ≤ b.length) : u32 ⟨b, off, false⟩ = .ok (word b off, ⟨b, off + 4, false⟩) := by
  rw [u32, bytes_of_le h, drop_eq_octet_cons (by omega), drop_eq_octet_cons (by omega),
    drop_eq_octet_cons (by omega), drop_eq_octet_cons (by omega)]
  rfl

end Reader

open Reader

def headerOf (b : List UInt8) : Spdu where
  si := octet b 2
  number := word b 10
  version := half b 14
  timeOfCurrentKey := word b 16
  timeToNextKey := (half b 20).toInt16

structure HeaderTags (b : List UInt8) : Prop where
  li : octet b 0 = cltpLi
  ud : octet b 1 = cltpUd
  common : octet b 4 = tagCommon

lemma readHeader_total (b : List UInt8) :
    (∃ e, readHeader b = .error e) ∨ 22 ≤ b.length ∧ ∃ s r, readHeader b = .ok (s, r) := by
  obtain ⟨li, r1, h1, k1⟩ := u8_reads (r := { b }) (Nat.zero_le _)
  simp only [readHeader, h1, ok_bind]
  by_cases hli : li ≠ cltpLi
  · exact .inl ⟨_, if_pos hli⟩
  rw [if_neg hli]
  obtain ⟨ud, r2, h2, k2⟩ := u8_reads k1.off_le
  simp only [h2, ok_bind]
  by_cases hud : ud ≠ cltpUd
  · exact .inl ⟨_, if_pos hud⟩
  rw [if_neg hud]
  obtain ⟨si, r3, h3, k3⟩ := u8_reads k2.off_le
  obtain ⟨sl, r4, h4, k4⟩ := u8_reads k3.off_le
  obtain ⟨tag, r5, h5, k5⟩ := u8_reads k4.off_le
  simp only [h3, h4, h5, ok_bind]
  by_cases htag : tag ≠ tagCommon
  · exact .inl ⟨_, if_pos htag⟩
  rw [if_neg htag]
  obtain ⟨cl, r6, h6, k6⟩ := u8_reads k5.off_le
  obtain ⟨len, r7, h7, k7⟩ := u32_reads k6.off_le
  obtain ⟨number, r8, h8, k8⟩ := u32_reads k7.off_le
  obtain ⟨version, r9, h9, k9⟩ := u16_reads k8.off_le
  obtain ⟨tock, r10, h10, k10⟩ := u32_reads k9.off_le
  obtain ⟨ttnk, r11, h11, k11⟩ := u16_reads k10.off_le
  simp only [h6, h7, h8, h9, h10, h11, ok_bind]
  cases hsh : r11.short with
  | true => exact .inl ⟨_, if_pos rfl⟩
  | false =>
    have hrd := k1.trans (k2.trans (k3.trans (k4.trans (k5.trans (k6.trans (k7.trans (k8.trans (k9.trans
      (k10.trans k11)))))))))
    have hlen := hrd.le hsh
    exact .inr ⟨by omega, _, _, if_neg Bool.false_ne_true⟩

lemma readHeader_ne_panic (b : List UInt8) : readHeader b ≠ .panic := by
  rcases readHeader_total b with ⟨e, he⟩ | ⟨-, s, r, hs⟩
  · simp [he]
  · simp [hs]

variable {r : Reader} {id : UInt32} {iv : List UInt8}

lemma readHeader_eq_ok {s : Spdu} : readHeader b = .ok (s, r) ↔
      22 ≤ b.length ∧ HeaderTags b ∧ s = headerOf b ∧ r = ⟨b, 22, false⟩ := by
  have hlong : readHeader b = .ok (s, r) → 22 ≤ b.length := by
    intro h
    rcases readHeader_total b with ⟨e, he⟩ | ⟨hl, -⟩
    · simp [he] at h
    · exact hl
  by_cases hl : 22 ≤ b.length
  · rw [readHeader]
    simp (disch := omega) only [u8_of_le, u16_of_le, u32_of_le, ok_bind]
    by_cases hli : octet b 0 = cltpLi
    · by_cases hud : octet b 1 = cltpUd
      · by_cases hco : octet b 4 = tagCommon
        · simp only [hli, hud, hco, ne_eq, not_true, if_false, Bool.false_eq_true, ok.injEq,
            Prod.mk.injEq]
          constructor
          · rintro ⟨rfl, rfl⟩
            exact ⟨hl, ⟨hli, hud, hco⟩, rfl, rfl⟩
          · rintro ⟨-, -, rfl, rfl⟩
            exact ⟨rfl, rfl⟩
        · simp only [hli, hud, hco, ne_eq, not_true, not_false_eq_true, if_false, if_true, reduceCtorEq,
            false_iff]
          exact fun h => hco h.2.1.common
      · simp only [hli, hud, ne_eq, not_true, not_false_eq_true, if_false, if_true, reduceCtorEq,
          false_iff]
        exact fun h => hud h.2.1.ud
    · simp only [hli, ne_eq, not_false_eq_true, if_true, reduceCtorEq, false_iff]
      exact fun h => hli h.2.1.li
  · exact ⟨fun h => absurd (hlong h) hl, fun h => absurd h.1 hl⟩

lemma lookupKey_ne_panic (keys : Option KeyStore) (id : UInt32) : lookupKey keys id ≠ .panic := by
  unfold lookupKey
  split <;> simp

variable {keys : Option KeyStore} {k : Key} {key : Option Key}

lemma lookupKey_eq_ok : lookupKey keys id = .ok k ↔ ∃ ks, keys = some ks ∧ ks.lookup id = some k := by
  cases keys with
  | none => simp [lookupKey]
  | some ks => cases hk : ks.lookup id <;> simp [lookupKey, hk]

def declaredSec (b : List UInt8) : SecAlgorithm := ⟨octet b 22⟩

def declaredSig (b : List UInt8) : SigAlgorithm := ⟨octet b 23⟩

lemma readSecurity1_eq (keys : Option KeyStore) (h : 28 ≤ b.length) : readSecurity1 keys ⟨b, 22, false⟩ =
      if word b 24 = 0 then if declaredSec b ≠ .none ∨ declaredSig b ≠ .none then
          .error (.malformed "algorithms without a key") else .ok (word b 24, none, [], ⟨b, 28, false⟩)
      else lookupKey keys (word b 24) >>= fun k => if declaredSec b ≠ k.sec ∨ declaredSig b ≠ k.sig then
          .error (.algorithm (algorithmText (declaredSec b) (declaredSig b) (word b 24) k))
        else .ok (word b 24, some k, [], ⟨b, 28, false⟩) := by
  rw [readSecurity1]
  simp (disch := omega) only [u8_of_le, u32_of_le, ok_bind]
  rfl

lemma readSecurity1_short (keys : Option KeyStore) (hb : 22 ≤ b.length)
    (h : b.length < 28) : ∃ e, readSecurity1 keys ⟨b, 22, false⟩ = .error e := by
  obtain ⟨sec, r1, h1, k1⟩ := u8_reads (r := ⟨b, 22, false⟩) hb
  obtain ⟨sig, r2, h2, k2⟩ := u8_reads k1.off_le
  obtain ⟨id, r3, h3, k3⟩ := u32_reads k2.off_le
  simp only [readSecurity1, h1, h2, h3, ok_bind]
  cases hs : r3.short with
  | true => exact ⟨_, if_pos rfl⟩
  | false =>
    have hlen := (k1.trans (k2.trans k3)).le hs
    omega

lemma readSecurity1_reader (hb : 22 ≤ b.length)
    (h : readSecurity1 keys ⟨b, 22, false⟩ = .ok (id, key, iv, r)) : 28 ≤ b.length ∧ r = ⟨b, 28, false⟩ := by
  by_cases h28 : 28 ≤ b.length
  · refine ⟨h28, ?_⟩
    rw [readSecurity1_eq keys h28] at h
    split at h
    · split at h
      · simp at h
      · simp only [ok.injEq, Prod.mk.injEq] at h
        exact h.2.2.2.symm
    obtain ⟨k, -, he⟩ := bind_eq_ok.mp h
    split at he
    · simp at he
    · simp only [ok.injEq, Prod.mk.injEq] at he
      exact he.2.2.2.symm
  · obtain ⟨e, he⟩ := readSecurity1_short keys hb (by omega)
    simp [he] at h

lemma readSecurity1_eq_ok_some (hb : 22 ≤ b.length) : readSecurity1 keys ⟨b, 22, false⟩ = .ok (id, some k, iv, r) ↔
      28 ≤ b.length ∧ (∃ ks, keys = some ks ∧ ks.lookup (word b 24) = some k) ∧
        declaredSec b = k.sec ∧ declaredSig b = k.sig ∧ id = word b 24 ∧ iv = [] ∧ r = ⟨b, 28, false⟩ := by
  by_cases h : 28 ≤ b.length
  · rw [readSecurity1_eq keys h]
    by_cases hid : word b 24 = 0
    · have hno : ¬ ∃ ks, keys = some ks ∧ ks.lookup (word b 24) = some k := by
        rintro ⟨ks, -, hk⟩
        exact KeyStore.lookup_id_ne_zero hk hid
      rw [if_pos hid]
      split <;> simp [hno]
    rw [if_neg hid, bind_eq_ok]
    constructor
    · rintro ⟨k', hk', he⟩
      split at he
      · simp at he
      rename_i hdecl
      push Not at hdecl
      obtain ⟨rfl, rfl, rfl, rfl⟩ := he
      exact ⟨h, lookupKey_eq_ok.mp hk', hdecl.1, hdecl.2, rfl, rfl, rfl⟩
    · rintro ⟨-, hk, hsec, hsig, rfl, rfl, rfl⟩
      refine ⟨k, lookupKey_eq_ok.mpr hk, ?_⟩
      rw [if_neg (by simp [hsec, hsig])]
  · obtain ⟨e, he⟩ := readSecurity1_short keys hb (by omega)
    simp [he, h]

lemma readSecurity1_ne_panic (keys : Option KeyStore) (hb : 22 ≤ b.length) :
    readSecurity1 keys ⟨b, 22, false⟩ ≠ .panic := by
  by_cases h : 28 ≤ b.length
  · rw [readSecurity1_eq keys h]
    split
    · split <;> simp
    rw [ne_eq, bind_eq_panic]
    rintro (hp | ⟨k, -, hp⟩)
    · exact lookupKey_ne_panic _ _ hp
    · split at hp <;> simp at hp
  · obtain ⟨e, he⟩ := readSecurity1_short keys hb (by omega)
    simp [he]

lemma readSecurity2_spec (keys : Option KeyStore) (hb : 22 ≤ b.length) : readSecurity2 keys ⟨b, 22, false⟩ ≠ .panic ∧
      ∀ id key iv r, readSecurity2 keys ⟨b, 22, false⟩ = .ok (id, key, iv, r) →
        r.b = b ∧ r.off ≤ b.length ∧ ∀ k ∈ key, k.sec ≠ .none → iv.length = gcmIvLen := by
  obtain ⟨id, r1, h1, k1⟩ := u32_reads (r := ⟨b, 22, false⟩) hb
  obtain ⟨len, r2, h2, k2⟩ := u8_reads k1.off_le
  obtain ⟨iv, r3, h3, k3, hiv⟩ := bytes_reads k2.off_le len.toNat
  have hb3 : r3.b = b := by rw [k3.b_eq, k2.b_eq, k1.b_eq]
  have hoff : r3.off ≤ b.length := hb3 ▸ k3.off_le
  simp only [readSecurity2, h1, h2, h3, ok_bind]
  cases hs : r3.short with
  | true => simp
  | false =>
    simp only [Bool.false_eq_true, if_false]
    by_cases hid : id = 0
    · rw [if_pos hid]
      refine ⟨by simp, ?_⟩
      rintro _ _ _ _ ⟨⟩
      exact ⟨hb3, hoff, by simp⟩
    rw [if_neg hid]
    refine ⟨?_, ?_⟩
    · rw [ne_eq, bind_eq_panic]
      rintro (hp | ⟨k, -, hp⟩)
      · exact lookupKey_ne_panic _ _ hp
      · split at hp <;> simp at hp
    intro id' key iv' r h
    obtain ⟨k, -, he⟩ := bind_eq_ok.mp h
    split at he
    · simp at he
    rename_i hlen
    obtain ⟨-, rfl, rfl, rfl⟩ := he
    refine ⟨hb3, hoff, ?_⟩
    intro k' hk' hsec
    simp only [Option.mem_def, Option.some.injEq] at hk'
    subst hk'
    rw [hiv hs]
    by_contra hne
    exact hlen ⟨hsec, hne⟩

/-- The padding that may stand before the signature trailer. -/
def Padding (padding : List UInt8) : Prop :=
  padding = [] ∨ ∃ n pad, padding = tagPadding :: n :: pad ∧ pad.length = n.toNat

lemma skipPadding_ne_panic (trailer : List UInt8) : skipPadding trailer ≠ .panic := by
  unfold skipPadding
  split
  · split
    · dsimp only
      split
      · simp
      rename_i hlen
      rw [slice_of_le (by omega) (Nat.le_refl _)]
      simp
    · simp
  · simp

variable {trailer : List UInt8}

lemma skipPadding_eq_ok {rest : List UInt8} (h : skipPadding trailer = .ok rest) :
    ∃ padding, trailer = padding ++ rest ∧ Padding padding := by
  unfold skipPadding at h
  split at h
  · rename_i tag len tail
    split at h
    · rename_i htag
      dsimp only at h
      split at h
      · simp at h
      rename_i hlen
      rw [slice_of_le (by omega) (Nat.le_refl _), ok.injEq] at h
      simp only [length_cons] at hlen h
      rw [show 2 + len.toNat = len.toNat + 1 + 1 by omega, drop_succ_cons, drop_succ_cons,
        take_of_length_le (by rw [length_drop]; omega)] at h
      refine ⟨tag :: len :: tail.take len.toNat, ?_, .inr ⟨len, _, by rw [htag], ?_⟩⟩
      · rw [← h, cons_append, cons_append, take_append_drop]
      · rw [length_take]
        omega
    · rw [ok.injEq] at h
      exact ⟨[], by simpa using h, .inl rfl⟩
  · rw [ok.injEq] at h
    exact ⟨[], by simpa using h, .inl rfl⟩

lemma skipPadding_append {padding : List UInt8} (hp : Padding padding) (n : UInt8)
    (rest : List UInt8) : skipPadding (padding ++ tagSignature :: n :: rest) = .ok (tagSignature :: n :: rest) := by
  rcases hp with rfl | ⟨m, pad, rfl, hm⟩
  · rw [nil_append, skipPadding, if_neg (show tagSignature ≠ tagPadding by decide)]
  simp only [cons_append, skipPadding, if_true]
  rw [if_neg (by simp only [length_cons, length_append]; omega),
    slice_of_le (by simp only [length_cons, length_append]; omega) (Nat.le_refl _),
    ok.injEq, take_of_length_le (by rw [length_drop]),
    show 2 + m.toNat = m.toNat + 1 + 1 by omega, drop_succ_cons, drop_succ_cons, ← hm,
    drop_left]

lemma readTrailer_ne_panic (trailer : List UInt8) : readTrailer trailer ≠ .panic := by
  unfold readTrailer
  split
  · split
    · simp
    dsimp only
    split
    · simp
    rename_i hlen
    rw [slice_of_le (by omega) (by omega)]
    simp
  · simp

lemma readTrailer_eq_ok {tag : List UInt8} : readTrailer trailer = .ok tag ↔
      ∃ n rest, trailer = tagSignature :: n :: (tag ++ rest) ∧ tag.length = n.toNat := by
  constructor
  · intro h
    unfold readTrailer at h
    split at h
    · rename_i t len tail
      split at h
      · simp at h
      rename_i htag
      dsimp only at h
      split at h
      · simp at h
      rename_i hlen
      simp only [length_cons] at hlen
      rw [slice_of_le (by omega) (by simp only [length_cons]; omega),
        ok.injEq, Nat.add_sub_cancel_left, drop_succ_cons, drop_succ_cons,
        drop_zero] at h
      refine ⟨len, tail.drop len.toNat, ?_, ?_⟩
      · rw [← h, take_append_drop, not_not.mp htag]
      · rw [← h, length_take]
        omega
    · simp at h
  · rintro ⟨n, rest, rfl, hn⟩
    simp only [readTrailer, ne_eq, not_true, if_false]
    rw [if_neg (by simp only [length_cons, length_append]; omega),
      slice_of_le (by omega) (by simp only [length_cons, length_append]; omega),
      Nat.add_sub_cancel_left, drop_succ_cons, drop_succ_cons, drop_zero, ← hn,
      take_left]

/-- What follows the user data of an SPDU under an encrypting key: padding and a trailer of a GCM tag's
length. -/
def SealedTrailer (trailer : List UInt8) : Prop :=
  ∃ padding n tag rest, trailer = padding ++ tagSignature :: n :: (tag ++ rest) ∧ Padding padding ∧
    n.toNat = gcmTagLen ∧ tag.length = gcmTagLen

lemma gcmOpen_eq_panic (c : Crypto) (k : Key) (iv sealedData aad : List UInt8) :
    gcmOpen c k iv sealedData aad = .panic ↔ iv.length ≠ gcmIvLen := by
  unfold gcmOpen
  by_cases h : iv.length ≠ gcmIvLen
  · simp [h]
  simp only [h, if_false, iff_false]
  by_cases hm : k.material.length ≠ if decide (k.sec ≠ .aes128Gcm) then 32 else 16
  · rw [if_pos hm]
    simp
  · rw [if_neg hm]
    split <;> simp

lemma openUser_eq_panic (c : Crypto) (k : Key) (iv user : List UInt8)
    {userStart userEnd : ℕ} (hs : userStart ≤ b.length) (he : userEnd ≤ b.length) :
    openUser c b k iv user userStart userEnd = .panic ↔
      k.sec ≠ .none ∧ iv.length ≠ gcmIvLen ∧ SealedTrailer (b.drop userEnd) := by
  have htail : (slice b userEnd b.length : Outcome Error (List UInt8)) = .ok (b.drop userEnd) := by
    rw [slice_of_le he (Nat.le_refl _), take_of_length_le (by rw [length_drop])]
  simp only [openUser, htail, ok_bind, bind_eq_panic, skipPadding_ne_panic, false_or]
  constructor
  · rintro ⟨trailer, hskip, hp⟩
    obtain ⟨padding, hpad, hpadding⟩ := skipPadding_eq_ok hskip
    have hle : trailer.length ≤ b.length := by
      have := congrArg length hpad
      rw [length_drop, length_append] at this
      omega
    rw [sub_of_le hle] at hp
    simp only [reduceCtorEq, false_or, ok.injEq, exists_eq_left', readTrailer_ne_panic] at hp
    obtain ⟨tag, htag, hp⟩ := hp
    obtain ⟨n, rest, rfl, hn⟩ := readTrailer_eq_ok.mp htag
    by_cases hsec : k.sec = .none
    · -- The MAC path slices within the datagram, so it does not abort.
      rw [if_neg (not_not.mpr hsec)] at hp
      split at hp
      · simp at hp
      · rw [slice_of_le (Nat.zero_le _) (Nat.sub_le _ _), ok_bind] at hp
        split at hp <;> simp at hp
    rw [if_pos hsec] at hp
    split at hp
    · simp at hp
    rename_i hlen
    rw [slice_of_le (Nat.zero_le _) hs, ok_bind, mapError_eq_panic, gcmOpen_eq_panic] at hp
    exact ⟨hsec, hp, padding, n, tag, rest, hpad, hpadding, by omega, by omega⟩
  rintro ⟨hsec, hiv, padding, n, tag, rest, hpad, hpadding, hn, htag⟩
  rw [hpad]
  refine ⟨_, skipPadding_append hpadding n (tag ++ rest), ?_⟩
  have hle : (tagSignature :: n :: (tag ++ rest)).length ≤ b.length := by
    have := congrArg length hpad
    rw [length_drop, length_append] at this
    omega
  rw [sub_of_le hle]
  simp only [reduceCtorEq, false_or, ok.injEq, exists_eq_left', readTrailer_ne_panic]
  refine ⟨tag, readTrailer_eq_ok.mpr ⟨n, rest, rfl, by omega⟩, ?_⟩
  rw [if_pos hsec, if_neg (not_not.mpr htag), slice_of_le (Nat.zero_le _) hs, ok_bind,
    mapError_eq_panic, gcmOpen_eq_panic]
  exact hiv

lemma length_take_drop {user : List UInt8} {off n : ℕ} (h : off + n ≤ user.length) :
    ((user.drop off).take n).length = n := by
  rw [length_take, length_drop]
  omega

lemma exists_six {l : List UInt8} (h : l.length = 6) : ∃ a b c d e f, l = [a, b, c, d, e, f] := by
  match l, h with
  | [a, b, c, d, e, f], _ => exact ⟨a, b, c, d, e, f, rfl⟩

lemma readPayloads_ne_panic (user : List UInt8) (rounds off : ℕ) (acc : List Payload)
    (hoff : off ≤ user.length) (h : user.length < off + rounds) :
    readPayloads user rounds off acc ≠ .panic := by
  induction rounds generalizing off acc with
  | zero => omega
  | succ rounds ih =>
    rw [readPayloads]
    by_cases hmo : off < user.length
    · rw [if_pos hmo, sub_of_le hoff, ok_bind]
      by_cases hhdr : user.length - off < elementHeader
      · simp [hhdr]
      have hfit : off + elementHeader ≤ user.length := by omega
      rw [if_neg hhdr, slice_of_le (by omega) hfit, ok_bind, Nat.add_sub_cancel_left]
      obtain ⟨kind, sim, id0, id1, len0, len1, hh⟩ :
          ∃ a b c d e f, (user.drop off).take elementHeader = [a, b, c, d, e, f] :=
        exists_six (length_take_drop hfit)
      simp only [hh, sub_of_le hfit, ok_bind]
      split
      · simp
      rw [slice_of_le (by omega) (by omega), ok_bind]
      have hpos : 0 < elementHeader := by decide
      exact ih _ _ (by omega) (by omega)
    · simp [hmo]

/-- A version 1 datagram that names an encrypting key under that key's algorithms and is complete. -/
structure Version1Sealed (b : List UInt8) (keys : Option KeyStore) : Prop where
  length : 32 + (word b 28).toNat ≤ b.length
  tags : HeaderTags b
  version : half b 14 = 1
  key : ∃ ks k, keys = some ks ∧ ks.lookup (word b 24) = some k ∧
    declaredSec b = k.sec ∧ declaredSig b = k.sig ∧ k.sec ≠ .none
  trailer : SealedTrailer (b.drop (32 + (word b 28).toNat))

lemma readUser_ne_panic_of_iv (c : Crypto) (hb : r.b = b) (hoff : r.off ≤ b.length)
    (hiv : ∀ k ∈ key, k.sec ≠ .none → iv.length = gcmIvLen) : readUser c b key iv r ≠ .panic := by
  subst hb
  obtain ⟨ul, r1, h1, k1⟩ := Reader.u32_reads hoff
  have hr1 : r1.off ≤ r.b.length := k1.b_eq ▸ k1.off_le
  simp only [readUser, h1, ok_bind]
  split
  · simp
  rw [sub_of_le hr1, ok_bind]
  split
  · simp
  rw [slice_of_le (by omega) (by omega), ok_bind]
  rcases key with _ | k
  · dsimp only
    split <;> simp
  rw [ne_eq, openUser_eq_panic c k iv _ hr1 (by omega)]
  rintro ⟨hsec, hne, -⟩
  exact hne (hiv k rfl hsec)

lemma readUser_nil_eq_panic (c : Crypto) (k : Key) (hb : 28 ≤ b.length) :
    readUser c b (some k) [] ⟨b, 28, false⟩ = .panic ↔ k.sec ≠ .none ∧ 32 + (word b 28).toNat ≤ b.length ∧
        SealedTrailer (b.drop (32 + (word b 28).toNat)) := by
  by_cases h32 : 32 ≤ b.length
  · simp only [readUser, Reader.u32_of_le h32, ok_bind, Bool.false_eq_true, if_false,
      sub_of_le h32]
    by_cases hul : b.length - 32 < (word b 28).toNat
    · simp only [hul, if_true, reduceCtorEq, false_iff]
      omega
    have hend : 32 + (word b 28).toNat ≤ b.length := by omega
    rw [if_neg hul, slice_of_le (by omega) hend, ok_bind, openUser_eq_panic c k [] _ h32 hend]
    have hiv : ([] : List UInt8).length ≠ gcmIvLen := by decide
    simp only [hiv, hend, ne_eq, not_false_eq_true, true_and]
  obtain ⟨ul, r1, h1, k1⟩ := Reader.u32_reads (r := ⟨b, 28, false⟩) hb
  have hsh : r1.short := by
    by_contra hs
    have hlen := k1.le (by simpa using hs)
    omega
  simp only [readUser, h1, ok_bind, hsh, if_true, reduceCtorEq, false_iff]
  omega

lemma unmarshal_eq_panic (c : Crypto) (b : List UInt8) (keys : Option KeyStore) :
    unmarshal c b keys = .panic ↔ Version1Sealed b keys := by
  have hpay (user : List UInt8) : readPayloads user (user.length + 1) 0 [] ≠ .panic :=
    readPayloads_ne_panic user _ 0 [] (Nat.zero_le _) (by omega)
  simp only [unmarshal, bind_eq_panic, readHeader_ne_panic, false_or, Prod.exists,
    readHeader_eq_ok, hpay, reduceCtorEq, and_false, exists_false, or_false]
  constructor
  · rintro ⟨s, r, ⟨hlen, htags, rfl, rfl⟩, hp⟩
    by_cases h1 : (headerOf b).version = 1
    · simp only [readSecurity, h1, if_true, readSecurity1_ne_panic keys hlen, false_or] at hp
      obtain ⟨id, key, iv, r, hsec, hp⟩ := hp
      rcases key with _ | k
      · obtain ⟨h28, rfl⟩ := readSecurity1_reader hlen hsec
        exact absurd hp (readUser_ne_panic_of_iv c rfl h28 (by simp))
      obtain ⟨h28, ⟨ks, hks, hk⟩, hd, hg, -, rfl, rfl⟩ := (readSecurity1_eq_ok_some hlen).mp hsec
      obtain ⟨hne, hul, htr⟩ := (readUser_nil_eq_panic c k h28).mp hp
      exact ⟨hul, htags, h1, ⟨ks, k, hks, hk, hd, hg, hne⟩, htr⟩
    exfalso
    by_cases h2 : (headerOf b).version = 2
    · obtain ⟨hnp, hok⟩ := readSecurity2_spec keys hlen
      have hrd : readSecurity keys (headerOf b) ⟨b, 22, false⟩ = readSecurity2 keys ⟨b, 22, false⟩ := by
        rw [readSecurity, if_neg h1, if_pos h2]
      simp only [hrd, hnp, false_or] at hp
      obtain ⟨id, key, iv, r, hsec, hp⟩ := hp
      obtain ⟨hb, hoff, hiv⟩ := hok id key iv r hsec
      exact readUser_ne_panic_of_iv c hb hoff hiv hp
    · simp [readSecurity, h1, h2] at hp
  · rintro ⟨hul, htags, hver, ⟨ks, k, hks, hk, hd, hg, hne⟩, htr⟩
    have hlen : 28 ≤ b.length := by omega
    refine ⟨headerOf b, ⟨b, 22, false⟩, ⟨by omega, htags, rfl, rfl⟩, .inr ?_⟩
    refine ⟨word b 24, some k, [], ⟨b, 28, false⟩, ?_, ?_⟩
    · rw [readSecurity, if_pos (show (headerOf b).version = 1 from hver)]
      exact (readSecurity1_eq_ok_some (by omega)).mpr ⟨hlen, ⟨ks, hks, hk⟩, hd, hg, rfl, rfl, rfl⟩
    · exact (readUser_nil_eq_panic c k hlen).mpr ⟨hne, hul, htr⟩

/-- Decoding a datagram returns a result or an error, whatever the octets and the keys, except on the
version 1 datagrams that name an encrypting key. -/
theorem unmarshal_returns_iff (c : Crypto) (b : List UInt8) (keys : Option KeyStore) :
    ((∃ s, unmarshal c b keys = .ok s) ∨ ∃ e, unmarshal c b keys = .error e) ↔ ¬ Version1Sealed b keys := by
  rw [← unmarshal_eq_panic c b keys]
  cases unmarshal c b keys <;> simp

def sampleKey : Key := ⟨1, List.replicate 16 0x30, .aes128Gcm, .none, 0, 0⟩

def sampleDatagram : List UInt8 :=
  [0x01, 0x40, 0xa1, 24, 0x80, 10, 0, 0, 0, 40, 0, 0, 0, 0, 0, 1, 0, 0, 0, 0, 0, 0,
    1, 0, 0, 0, 0, 1, 0, 0, 0, 0, 0x85, 16] ++ List.replicate 16 0

def refusing : Crypto := ⟨fun _ _ _ _ _ => none, fun _ _ => [], fun _ _ => []⟩

theorem unmarshal_sampleDatagram_panics :
    sampleKey.validate = .ok () ∧ (KeyStore.withKeys [sampleKey]).toOption.isSome ∧
      unmarshal refusing sampleDatagram (KeyStore.withKeys [sampleKey]).toOption = .panic := by
  refine ⟨rfl, rfl, rfl⟩

end Iec61850.RSession
