import Iec61850.Outcome
import Mathlib.Data.Int.Notation
import Mathlib.Data.Nat.Size

/-! Leaf certificates of X.509 version 1, which the library verifier does not take. -/
namespace Iec61850.Iec62351
open Outcome List

inductive Error where
  | chain (text : String)
  | revoked
  | staleCrl
  | weakKey (text : String)
  | notAllowed
  | serverName (name : String)
deriving DecidableEq

inductive Curve where
  | p256
  | p384
  | p521
  | other

def Curve.bits : Curve → ℕ
  | p256 => 256
  | p384 => 384
  | p521 => 521
  | other => 0

def Curve.debug : Curve → String
  | p256 => "P256"
  | p384 => "P384"
  | p521 => "P521"
  | other => "Other"

inductive PublicKey where
  | rsa (n e : List UInt8)
  | ec (curve : Curve) (point : List UInt8)
  | ed25519 (key : List UInt8)
  | other (oid : List UInt32)

structure Signed where
  (tbs algorithm signature : List UInt8)

/-- What is read of a certificate. Times are seconds since the Unix epoch. -/
structure Certificate where
  commonName : Option String
  publicKey : PublicKey
  version : UInt8
  (notBefore notAfter : ℤ)
  (subject issuer serial spkiAlg spkiKey : List UInt8)
  signed : Signed

structure Crl where
  issuer : List UInt8
  nextUpdate : Option ℤ
  revoked : List (List UInt8)
  signed : Signed

/-- A signature algorithm; `verifySignature` is given the key, the message and the signature. -/
structure Algorithm where
  (signatureAlgId publicKeyAlgId : List UInt8)
  verifySignature : List UInt8 → List UInt8 → List UInt8 → Bool

structure Verifier where
  algs : List Algorithm
  roots : List Certificate
  crlList : List Crl
  allowStaleCrl : Bool
  allowedPeers : List (List UInt8)
  serverName : String

def minRsaBits : ℕ := 2048

/-- The size of a modulus. The subtraction aborts when it has no octet. -/
def rsaBits (n : List UInt8) : Outcome Error ℕ := sub (n.length * 8) (8 - (n.headD 0).toNat.size)

def checkKey : PublicKey → Outcome Error Unit
  | .rsa n _ => do
    let bits ← rsaBits n
    if bits < minRsaBits then .error (.weakKey s!"{bits}-bit RSA") else .ok ()
  | .ec curve _ => if curve.bits < 256 then .error (.weakKey curve.debug) else .ok ()
  | .ed25519 _ => .ok ()
  | .other oid => .error (.weakKey s!"algorithm {oid}")

namespace Verifier

def signedBy (v : Verifier) (signed : Signed) (issuer : Certificate) : Bool :=
  v.algs.any fun alg => alg.signatureAlgId == signed.algorithm && alg.publicKeyAlgId == issuer.spkiAlg &&
    alg.verifySignature issuer.spkiKey signed.tbs signed.signature

def Stale (v : Verifier) (now : ℤ) (crl : Crl) : Prop := ¬ v.allowStaleCrl ∧ ∃ n ∈ crl.nextUpdate, n < now
deriving Decidable

def checkCrls (v : Verifier) (leaf root : Certificate) (now : ℤ) : List Crl → Outcome Error Unit
  | [] => .ok ()
  | crl :: crls =>
    if ¬ v.signedBy crl.signed root then v.checkCrls leaf root now crls
    else if v.Stale now crl then .error .staleCrl
    else if leaf.serial ∈ crl.revoked then .error .revoked
    else v.checkCrls leaf root now crls

def root (v : Verifier) (leaf : Certificate) : Option Certificate :=
  v.roots.find? fun r => r.subject == leaf.issuer

def crls (v : Verifier) (leaf : Certificate) : List Crl := v.crlList.filter fun c => c.issuer == leaf.issuer

def verifyV1 (v : Verifier) (leaf : Certificate) (now : ℤ) : Outcome Error Unit :=
  if now < leaf.notBefore ∨ leaf.notAfter < now then .error (.chain "certificate expired or not yet valid")
  else match v.root leaf with
    | none => .error (.chain "an X.509 v1 certificate not issued by a configured root")
    | some root =>
      if ¬ v.signedBy leaf.signed root then .error (.chain "certificate signature does not verify")
      else do
        checkKey leaf.publicKey
        checkKey root.publicKey
        v.checkCrls leaf root now (v.crls leaf)

def checkPinned (v : Verifier) (leaf : List UInt8) : Outcome Error Unit :=
  if v.allowedPeers ≠ [] ∧ leaf ∉ v.allowedPeers then .error .notAllowed else .ok ()

/-- `library` is what the library verifier, and what follows it, says of the leaf. -/
def verify (v : Verifier) (library : Outcome Error Unit) (leaf : List UInt8) (parsed : Certificate) (now : ℤ)
    (server : Bool) : Outcome Error Unit :=
  if parsed.version = 1 then do
    v.verifyV1 parsed now
    if server ∧ v.serverName ≠ "" ∧ parsed.commonName ≠ some v.serverName then
      .error (.serverName v.serverName)
    else v.checkPinned leaf
  else library

variable {v : Verifier} {root c : Certificate} {now : ℤ} {crls : List Crl} {server : Bool} {leaf : List UInt8}
  {library : Outcome Error Unit}

/-- A root stands for a certificate, as far as some CRLs go. -/
structure Vouches (v : Verifier) (c : Certificate) (now : ℤ) (crls : List Crl) (root : Certificate) : Prop where
  signed : v.signedBy c.signed root
  leafKey : checkKey c.publicKey = .ok ()
  rootKey : checkKey root.publicKey = .ok ()
  clear : ∀ crl ∈ crls, v.signedBy crl.signed root → ¬ v.Stale now crl ∧ c.serial ∉ crl.revoked

/-- What is asked of a leaf besides a root. -/
structure Fitting (v : Verifier) (leaf : List UInt8) (c : Certificate) (now : ℤ) (server : Bool) : Prop where
  valid : c.notBefore ≤ now ∧ now ≤ c.notAfter
  named : server → v.serverName ≠ "" → c.commonName = some v.serverName
  pinned : v.allowedPeers ≠ [] → leaf ∈ v.allowedPeers

lemma seq_eq_ok {x y : Outcome Error Unit} : (x >>= fun _ => y) = .ok () ↔ x = .ok () ∧ y = .ok () := by
  cases x <;> simp

lemma checkCrls_iff : v.checkCrls c root now crls = .ok () ↔
    ∀ crl ∈ crls, v.signedBy crl.signed root → ¬ v.Stale now crl ∧ c.serial ∉ crl.revoked := by
  induction crls with
  | nil => simp [checkCrls]
  | cons crl crls ih =>
    rw [checkCrls, forall_mem_cons, ← ih]
    split
    next hs => simp [hs]
    next hs =>
    split
    next hstale => simp [not_not.mp hs, hstale]
    next hstale =>
    split
    next hr => simp [not_not.mp hs, hr]
    next hr => simp [hstale, hr]

lemma verifyV1_iff : v.verifyV1 c now = .ok () ↔
    (c.notBefore ≤ now ∧ now ≤ c.notAfter) ∧ ∃ root ∈ v.root c, v.Vouches c now (v.crls c) root := by
  rw [verifyV1]
  split
  next hv =>
    simp only [reduceCtorEq, false_iff]
    omega
  rw [and_iff_right (by omega)]
  cases v.root c with
  | none => simp
  | some root =>
    simp only [Option.mem_some_iff, exists_eq_left']
    split
    next hs => simpa using fun h : Vouches .. => hs h.signed
    next hs =>
    rw [seq_eq_ok, seq_eq_ok, checkCrls_iff]
    exact ⟨fun h => ⟨not_not.mp hs, h.1, h.2.1, h.2.2⟩, fun h => ⟨h.leafKey, h.rootKey, h.clear⟩⟩

lemma verify_iff (h : c.version = 1) : v.verify library leaf c now server = .ok () ↔
    v.Fitting leaf c now server ∧ ∃ root ∈ v.root c, v.Vouches c now (v.crls c) root := by
  rw [verify, if_pos h, seq_eq_ok, verifyV1_iff, checkPinned]
  constructor
  · rintro ⟨⟨hv, hroot⟩, hrs⟩
    split at hrs
    · cases hrs
    next hnm =>
    split at hrs
    · cases hrs
    next hpin =>
    refine ⟨⟨hv, ?_, ?_⟩, hroot⟩
    · intro hs hn
      exact by_contra fun hc => hnm ⟨hs, hn, hc⟩
    · intro hp
      exact by_contra fun hl => hpin ⟨hp, hl⟩
  · rintro ⟨⟨hv, hnm, hpin⟩, hroot⟩
    refine ⟨⟨hv, hroot⟩, ?_⟩
    rw [if_neg (fun hc => hc.2.2 (hnm hc.1 hc.2.1)), if_neg (fun hc => hc.2 (hpin hc.1))]

/-- No root of the issuer's name that signed the leaf stands behind another of that name. -/
def RootsTold (v : Verifier) (c : Certificate) : Prop :=
  v.roots.Pairwise fun a b => a.subject = c.issuer → b.subject = c.issuer → ¬ v.signedBy c.signed b
deriving Decidable

/-- A CRL that a root of the issuer's name signed is issued in that name. -/
def CrlsNamed (v : Verifier) (c : Certificate) : Prop :=
  ∀ root ∈ v.roots, root.subject = c.issuer → ∀ crl ∈ v.crlList, v.signedBy crl.signed root → crl.issuer = c.issuer
deriving Decidable

lemma root_of_signed (hroots : v.RootsTold c) (hr : root ∈ v.roots) (hnm : root.subject = c.issuer)
    (hsigned : v.signedBy c.signed root) : v.root c = some root := by
  obtain ⟨first, hfst⟩ : ∃ first, v.root c = some first :=
    Option.isSome_iff_exists.mp (find?_isSome.mpr ⟨root, hr, beq_iff_eq.mpr hnm⟩)
  obtain ⟨hsubject, before, after, heq, hbef⟩ := find?_eq_some_iff_append.mp hfst
  rw [RootsTold, heq, pairwise_append, pairwise_cons] at hroots
  rw [heq, mem_append, mem_cons] at hr
  rcases hr with hr | rfl | hr
  · simpa [hnm] using hbef root hr
  · exact hfst
  · exact absurd hsigned (hroots.2.1.1 root hr (beq_iff_eq.mp hsubject) hnm)

lemma Vouches.of_subset {crls' : List Crl} (h : v.Vouches c now crls root)
    (hs : ∀ crl ∈ crls', v.signedBy crl.signed root → crl ∈ crls) : v.Vouches c now crls' root :=
  { h with clear := fun crl hc hsigned => h.clear crl (hs crl hc hsigned) hsigned }

/-- Its key verifies the signature that is the key itself. -/
def sampleCertificate (key : UInt8) (signature : List UInt8) : Certificate :=
  ⟨none, .ed25519 [], 1, 0, 9, [5], [5], [7], [], [key], ⟨[], [], signature⟩⟩

def sampleVerifier : Verifier :=
  ⟨[⟨[], [], fun key _ signature => key == signature⟩], [sampleCertificate 1 [1], sampleCertificate 2 [2]], [],
    false, [], ""⟩

end Verifier
end Iec61850.Iec62351
