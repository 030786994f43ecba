import MailboxService.ExportRoundTrip
import MailboxService.Foundation.Base64
import MailboxService.Foundation.Utf8

/-!
# The credential cipher

`CredentialCipher` of `security.py`: what is stored is the URL-safe Base64 of a
nonce and of what AES-GCM makes of the text under it. The key comes from the
settings, which check it (`validate_encryption_key`).

Elsewhere encryption is a parameter with its round trip as a hypothesis.
`cipherRoundTrips_of_key` is that hypothesis for this cipher.
-/

namespace MailboxService

open Foundation

/-- AES-GCM under one key. Under a nonce of twelve bytes what was encrypted can be
decrypted, and nothing else; the tag alone has sixteen bytes. -/
structure AesGcm where
  encrypt : List UInt8 → List UInt8 → List UInt8
  decrypt : List UInt8 → List UInt8 → Option (List UInt8)
  decrypt_eq_some : ∀ nonce sealed plain, nonce.length = 12 →
    (decrypt nonce sealed = some plain ↔ sealed = encrypt nonce plain)
  decrypt_short : ∀ nonce sealed, sealed.length < 16 → decrypt nonce sealed = none

inductive CipherError where
  | encoding
  | invalidTag
  | unicode
  | keyEncoding (message : String)
  | keyLength (message : String)
  deriving DecidableEq, Repr

/-- `validate_encryption_key`, on a key that is set: the bytes of the key. -/
def validateEncryptionKey (value : String) : Except CipherError (List UInt8) :=
  match Base64.decode value.toList with
  | none => .error (.keyEncoding "credential_encryption_key 必须为 URL-safe Base64")
  | some decodedKey =>
      if decodedKey.length ≠ 32 then
        .error (.keyLength "credential_encryption_key 解码后必须为 32 字节")
      else .ok decodedKey

structure CredentialCipher where
  key : List UInt8
  gcm : AesGcm

/-- `CredentialCipher(encoded_key)` of settings that passed their check; `aesGcm` is
`AESGCM` of the cryptography package. -/
def CredentialCipher.ofKey (aesGcm : List UInt8 → AesGcm) (encodedKey : String) :
    Except CipherError CredentialCipher :=
  match validateEncryptionKey encodedKey with
  | .error e => .error e
  | .ok key => .ok { key, gcm := aesGcm key }

namespace CredentialCipher

variable (cipher : CredentialCipher)

/-- `encrypt`, with the drawn nonce. -/
def encrypt (nonce : List UInt8) (plaintext : String) : String :=
  .ofList (Base64.encode (nonce ++ cipher.gcm.encrypt nonce (Utf8.encode plaintext.toList)))

def decrypt (encryptedValue : String) : Except CipherError String :=
  match Base64.decode encryptedValue.toList with
  | none => .error .encoding
  | some decodedValue =>
      match cipher.gcm.decrypt (decodedValue.take 12) (decodedValue.drop 12) with
      | none => .error .invalidTag
      | some plain =>
          match Utf8.decode? plain with
          | none => .error .unicode
          | some text => .ok (.ofList text)

/-! ## What can be decrypted -/

variable {cipher}

/-- **Exactly what was encrypted can be decrypted**, however its bytes are written
in Base64. -/
theorem decrypt_eq_ok {encryptedValue plaintext : String} :
    cipher.decrypt encryptedValue = .ok plaintext ↔
      ∃ nonce : List UInt8, nonce.length = 12 ∧ Base64.decode encryptedValue.toList =
        some (nonce ++ cipher.gcm.encrypt nonce (Utf8.encode plaintext.toList)) := by
  unfold decrypt
  constructor
  · intro h
    split at h
    · cases h
    rename_i decodedValue hdecoded
    split at h
    · cases h
    rename_i plain hplain
    split at h
    · cases h
    rename_i text htext
    cases h
    -- what is shorter than a nonce leaves nothing to decrypt
    have hlength : (decodedValue.take 12).length = 12 := by
      by_contra hshort
      rw [List.length_take] at hshort
      have hnone := cipher.gcm.decrypt_short (decodedValue.take 12) (decodedValue.drop 12) (by
        rw [List.length_drop]
        omega)
      rw [hnone] at hplain
      cases hplain
    refine ⟨decodedValue.take 12, hlength, ?_⟩
    rw [String.toList_ofList, ← Utf8.decode?_eq_some.mp htext,
      ← (cipher.gcm.decrypt_eq_some _ _ _ hlength).mp hplain, List.take_append_drop, hdecoded]
  · rintro ⟨nonce, hlength, hdecoded⟩
    have htake : (nonce ++ cipher.gcm.encrypt nonce (Utf8.encode plaintext.toList)).take 12 =
        nonce := List.take_left' hlength
    have hdrop : (nonce ++ cipher.gcm.encrypt nonce (Utf8.encode plaintext.toList)).drop 12 =
        cipher.gcm.encrypt nonce (Utf8.encode plaintext.toList) := List.drop_left' hlength
    have hplain := (cipher.gcm.decrypt_eq_some nonce _ _ hlength).mpr
      (rfl : cipher.gcm.encrypt nonce (Utf8.encode plaintext.toList) = _)
    simp only [hdecoded, htake, hdrop, hplain, Utf8.decode?_eq_some.mpr rfl, String.ofList_toList]

variable (cipher) in
theorem decode_encrypt (nonce : List UInt8) (plaintext : String) :
    Base64.decode (cipher.encrypt nonce plaintext).toList =
      some (nonce ++ cipher.gcm.encrypt nonce (Utf8.encode plaintext.toList)) := by
  unfold encrypt
  rw [String.toList_ofList, Base64.decode_encode]

variable (cipher) in
theorem decrypt_encrypt {nonce : List UInt8} (hnonce : nonce.length = 12) (plaintext : String) :
    cipher.decrypt (cipher.encrypt nonce plaintext) = .ok plaintext :=
  decrypt_eq_ok.mpr ⟨nonce, hnonce, decode_encrypt cipher nonce plaintext⟩

/-- Two ciphertexts are equal only if they are of the same text under the same
nonce. -/
theorem encrypt_inj {nonce nonce' : List UInt8} (hnonce : nonce.length = 12)
    (hnonce' : nonce'.length = 12) {plaintext plaintext' : String}
    (h : cipher.encrypt nonce plaintext = cipher.encrypt nonce' plaintext') :
    nonce = nonce' ∧ plaintext = plaintext' := by
  have hdecoded := decode_encrypt cipher nonce plaintext
  rw [h, decode_encrypt] at hdecoded
  have hdecrypt := decrypt_encrypt cipher hnonce plaintext
  rw [h, decrypt_encrypt cipher hnonce'] at hdecrypt
  have hbytes := Option.some.inj hdecoded
  exact ⟨(List.append_inj_left hbytes (hnonce'.trans hnonce.symm)).symm,
    (Except.ok.inj hdecrypt).symm⟩

theorem ne_empty_of_decrypt {encryptedValue plaintext : String}
    (h : cipher.decrypt encryptedValue = .ok plaintext) : encryptedValue ≠ "" := by
  rintro rfl
  obtain ⟨nonce, hnonce, hdecoded⟩ := decrypt_eq_ok.mp h
  have hempty : ([] : List UInt8) = nonce ++ _ := Option.some.inj hdecoded
  rw [(List.append_eq_nil_iff.mp hempty.symm).1] at hnonce
  cases hnonce

theorem encrypt_ne_empty {nonce : List UInt8} (hnonce : nonce.length = 12) (plaintext : String) :
    cipher.encrypt nonce plaintext ≠ "" :=
  ne_empty_of_decrypt (decrypt_encrypt cipher hnonce plaintext)

end CredentialCipher

theorem CredentialCipher.ofKey_ok {aesGcm : List UInt8 → AesGcm} {encodedKey : String}
    {cipher : CredentialCipher} (h : CredentialCipher.ofKey aesGcm encodedKey = .ok cipher) :
    Base64.decode encodedKey.toList = some cipher.key ∧ cipher.key.length = 32 ∧
      cipher.gcm = aesGcm cipher.key := by
  unfold ofKey validateEncryptionKey at h
  split at h
  · cases h
  rename_i key hkey
  cases h
  split at hkey
  · cases hkey
  rename_i decodedKey hdecoded
  split at hkey
  · cases hkey
  rename_i hlength
  cases hkey
  exact ⟨hdecoded, not_not.mp hlength, rfl⟩

/-! ## The cipher behind the token service -/

/-- The settings of a service that encrypts by the cipher, with the nonces that it
draws; `describe` is the text of a Python exception. -/
def TokenSettings.withCipher (settings : TokenSettings) (cipher : CredentialCipher)
    (nonces : ℕ → List UInt8) (describe : CipherError → String) : TokenSettings :=
  { settings with
    encrypt := fun n plaintext => cipher.encrypt (nonces n) plaintext
    decrypt := fun encryptedValue => (cipher.decrypt encryptedValue).mapError describe }

theorem TokenSettings.withCipher_roundTrips (settings : TokenSettings)
    (cipher : CredentialCipher) {nonces : ℕ → List UInt8} (hnonces : ∀ n, (nonces n).length = 12)
    (describe : CipherError → String) :
    (settings.withCipher cipher nonces describe).CipherRoundTrips where
  decrypt_encrypt n text := by
    show (cipher.decrypt (cipher.encrypt (nonces n) text)).mapError describe = _
    rw [CredentialCipher.decrypt_encrypt cipher (hnonces n)]
    rfl
  encrypt_ne_empty n text := CredentialCipher.encrypt_ne_empty (hnonces n) text

/-- **The credential cipher**: under a configured key of 32 bytes a stored text can
be decrypted exactly if it has the bytes of an encryption of what comes out,
encryptions of different texts or under different nonces differ, and the token
service runs on a cipher that reads back what it has written. -/
theorem credentialCipher_exact {aesGcm : List UInt8 → AesGcm} {encodedKey : String}
    {cipher : CredentialCipher} (h : CredentialCipher.ofKey aesGcm encodedKey = .ok cipher)
    (settings : TokenSettings) {nonces : ℕ → List UInt8} (hnonces : ∀ n, (nonces n).length = 12)
    (describe : CipherError → String) :
    (Base64.decode encodedKey.toList = some cipher.key ∧ cipher.key.length = 32) ∧
      (∀ encryptedValue plaintext, cipher.decrypt encryptedValue = .ok plaintext ↔
        ∃ nonce : List UInt8, nonce.length = 12 ∧ Base64.decode encryptedValue.toList =
          Base64.decode (cipher.encrypt nonce plaintext).toList) ∧
      (∀ nonce nonce' : List UInt8, nonce.length = 12 → nonce'.length = 12 →
        ∀ plaintext plaintext',
          cipher.encrypt nonce plaintext = cipher.encrypt nonce' plaintext' ↔
            nonce = nonce' ∧ plaintext = plaintext') ∧
      (settings.withCipher cipher nonces describe).CipherRoundTrips := by
  obtain ⟨hdecoded, hlength, -⟩ := CredentialCipher.ofKey_ok h
  refine ⟨⟨hdecoded, hlength⟩, ?_, ?_, settings.withCipher_roundTrips cipher hnonces describe⟩
  · intro encryptedValue plaintext
    rw [CredentialCipher.decrypt_eq_ok]
    simp only [CredentialCipher.decode_encrypt]
  · intro nonce nonce' hnonce hnonce' plaintext plaintext'
    constructor
    · exact CredentialCipher.encrypt_inj hnonce hnonce'
    · rintro ⟨rfl, rfl⟩
      rfl

/-! ## A cipher that hides nothing -/

section Sample

/-- The nonce and sixteen zeros, and the plain text behind them. -/
def openGcm : AesGcm where
  encrypt nonce plain := (nonce ++ List.replicate 16 0) ++ plain
  decrypt nonce encrypted :=
    if nonce ++ List.replicate 16 0 <+: encrypted then
      some (encrypted.drop (nonce ++ List.replicate 16 0).length)
    else none
  decrypt_eq_some nonce encrypted plain _ := by
    constructor
    · intro h
      split at h
      · rename_i hfront
        obtain ⟨rest, rfl⟩ := hfront
        rw [List.drop_left, Option.some.injEq] at h
        rw [h]
      · cases h
    · rintro rfl
      rw [if_pos (List.prefix_append _ _), List.drop_left]
  decrypt_short nonce encrypted h := by
    rw [if_neg]
    intro hfront
    have hlength := hfront.length_le
    rw [List.length_append, List.length_replicate] at hlength
    omega

def zeroNonces (_ : ℕ) : List UInt8 := List.replicate 12 0

/-- Forty-three characters and their padding are 32 bytes. -/
def zeroKey : String := "AAAAAAAAAAAAAAAAAAAAAAAAAAAAAAAAAAAAAAAAAAA="

theorem ofKey_zeroKey : CredentialCipher.ofKey (fun _ => openGcm) zeroKey =
    .ok { key := List.replicate 32 0, gcm := openGcm } := by
  have hkey : validateEncryptionKey zeroKey = .ok (List.replicate 32 0) := by decide +kernel
  unfold CredentialCipher.ofKey
  rw [hkey]

theorem credentialCipher_exact_sample :
    (Base64.decode zeroKey.toList = some (List.replicate 32 0) ∧
      (List.replicate 32 (0 : UInt8)).length = 32) ∧
      (∀ encryptedValue plaintext,
        (CredentialCipher.mk (List.replicate 32 0) openGcm).decrypt encryptedValue =
            .ok plaintext ↔
          ∃ nonce : List UInt8, nonce.length = 12 ∧ Base64.decode encryptedValue.toList =
            Base64.decode ((CredentialCipher.mk (List.replicate 32 0) openGcm).encrypt nonce
              plaintext).toList) ∧
      (∀ nonce nonce' : List UInt8, nonce.length = 12 → nonce'.length = 12 →
        ∀ plaintext plaintext',
          (CredentialCipher.mk (List.replicate 32 0) openGcm).encrypt nonce plaintext =
              (CredentialCipher.mk (List.replicate 32 0) openGcm).encrypt nonce' plaintext' ↔
            nonce = nonce' ∧ plaintext = plaintext') ∧
      (sampleTokenSettings.withCipher (CredentialCipher.mk (List.replicate 32 0) openGcm)
        zeroNonces fun _ => "").CipherRoundTrips :=
  credentialCipher_exact ofKey_zeroKey sampleTokenSettings (fun _ => rfl) fun _ => ""

/-- Characters outside the alphabet are stepped over. -/
example : Base64.decode " Y W\nJj=".toList = Base64.decode "YWJj".toList := by decide +kernel

end Sample

end MailboxService
