import Stardust.Core.Slices
import Stardust.Core.Utf8

/-!
# Encryption with a password

`Encrypt` puts a random salt and a nonce before the sealed text, `EncryptWithFixedSalt` only the
nonce; the decryptors take them apart again at fixed places, each after a check of the length.
The functions work on slices, some of which are appended to while others are in use. Next to each
of them stands what it computes on plain bytes.
-/

namespace Stardust.Jwt

open Stardust.Core Slice

/-- The bytes of a Go string or a slice. -/
abbrev Bytes := List UInt8

/-- What the standard library provides, with the laws that decryption rests on. -/
structure Primitives where
  sum256 : Bytes → Vector UInt8 32
  encodeToString : Bytes → Bytes
  decodeString : Bytes → Except String Bytes
  /-- The sealed text for a key, a nonce and a text. -/
  sealText : Bytes → Bytes → Bytes → Bytes
  openText : Bytes → Bytes → Bytes → Except String Bytes
  decode_encode : ∀ data, decodeString (encodeToString data) = .ok data
  open_seal : ∀ key nonce text, openText key nonce (sealText key nonce text) = .ok text

/-- The length of the random salt. -/
def saltSize : Nat := 16

/-- The `NonceSize` of GCM. -/
def nonceSize : Nat := 12

/-- The cipher of a key, which only looks at its length. -/
def newCipher (key : Bytes) : Except String Bytes :=
  if key.length = 16 ∨ key.length = 24 ∨ key.length = 32 then .ok key
  else .error ("crypto/aes: invalid key size " ++ toString key.length)

variable (P : Primitives)

/-- The key after some more rounds. -/
def rehash : Nat → Vector UInt8 32 → Vector UInt8 32
  | 0, key => key
  | n + 1, key => rehash n (P.sum256 key.toList)

section Functions

variable (spare : Nat → Nat) (password : Bytes)

/-- The rounds are counted up to `count - 1`, which wraps around for the least integer. -/
def getDerivedKey (salt : Slice) (count : Int64) :
    Go (Memory UInt8) String Bytes := do
  let buf ← alloc 0 spare password
  let salted ← buf.append 0 spare (← salt.read)
  let key := P.sum256 (← salted.read)
  return (rehash P (count - 1).toInt.toNat key).toList

/-- What `gcm.Seal(dst, nonce, text, nil)` appends to `dst`. -/
def gcmSeal (block : Bytes) (dst nonce : Slice) (text : Bytes) :
    Go (Memory UInt8) String Slice := do
  let nonce ← nonce.read
  if nonce.length ≠ nonceSize then
    throw "crypto/cipher: incorrect nonce length given to GCM"
  else
    dst.append 0 spare (P.sealText block nonce text)

/-- What `gcm.Open(nil, nonce, data, nil)` gives. -/
def gcmOpen (block : Bytes) (nonce data : Slice) :
    Go (Memory UInt8) String (Except String Bytes) := do
  let nonce ← nonce.read
  if nonce.length ≠ nonceSize then
    throw "crypto/cipher: incorrect nonce length given to GCM"
  else
    return P.openText block nonce (← data.read)

variable (iterations : Int64)

/-- What both encryptors do once they have a salt. -/
def sealWithSalt (text : Bytes) (salt : Slice) (random : Except String (Vector UInt8 nonceSize)) :
    Go (Memory UInt8) String (Except String Slice) := do
  let key ← getDerivedKey P spare password salt iterations
  match newCipher key with
  | .error err => return .error err
  | .ok block =>
    let nonce ← alloc 0 (fun _ => 0) (List.replicate nonceSize 0)
    match random with
    | .error err => return .error err
    | .ok bytes =>
      nonce.copy bytes.toList
      return .ok (← gcmSeal P spare block nonce nonce text)

/-- What both decryptors do once they have the salt and the data behind it. -/
def openWithSalt (salt data : Slice) :
    Go (Memory UInt8) String (Except String Bytes) := do
  let key ← getDerivedKey P spare password salt iterations
  match newCipher key with
  | .error err => return .error err
  | .ok block =>
    if data.len < nonceSize then return .error "ciphertext too short"
    else
      let nonce ← data.slice 0 nonceSize
      let cipherdata ← data.slice nonceSize data.len
      gcmOpen P block nonce cipherdata

/-- The random bytes for the salt and the nonce are inputs, or the errors in reading them. -/
def encrypt (text : Bytes) (randomSalt : Except String (Vector UInt8 saltSize))
    (randomNonce : Except String (Vector UInt8 nonceSize)) :
    Go (Memory UInt8) String (Except String Bytes) := do
  let salt ← alloc 0 (fun _ => 0) (List.replicate saltSize 0)
  match randomSalt with
  | .error err => return .error err
  | .ok bytes =>
    salt.copy bytes.toList
    match ← sealWithSalt P spare password iterations text salt randomNonce with
    | .error err => return .error err
    | .ok ciphertext =>
      let result ← salt.append 0 spare (← ciphertext.read)
      return .ok (P.encodeToString (← result.read))

/-- Decrypt what `encrypt` returned. -/
def decrypt (cipherText : Bytes) :
    Go (Memory UInt8) String (Except String Bytes) := do
  match P.decodeString cipherText with
  | .error err => return .error err
  | .ok decoded =>
    let data ← alloc 0 spare decoded
    if data.len < saltSize then return .error "ciphertext too short"
    else
      let salt ← data.slice 0 saltSize
      let cipherdata ← data.slice saltSize data.len
      openWithSalt P spare password iterations salt cipherdata

/-- Encrypt under a salt that is given, padded or cut. -/
def encryptWithFixedSalt (text fixedSalt : Bytes)
    (randomNonce : Except String (Vector UInt8 nonceSize)) :
    Go (Memory UInt8) String (Except String Bytes) := do
  let salt ← alloc 0 (fun _ => 0) (List.replicate saltSize 0)
  salt.copy fixedSalt
  match ← sealWithSalt P spare password iterations text salt randomNonce with
  | .error err => return .error err
  | .ok ciphertext => return .ok (P.encodeToString (← ciphertext.read))

/-- Decrypt what `encryptWithFixedSalt` returned. -/
def decryptWithFixedSalt (cipherText fixedSalt : Bytes) :
    Go (Memory UInt8) String (Except String Bytes) := do
  match P.decodeString cipherText with
  | .error err => return .error err
  | .ok decoded =>
    let data ← alloc 0 spare decoded
    let salt ← alloc 0 (fun _ => 0) (List.replicate saltSize 0)
    salt.copy fixedSalt
    openWithSalt P spare password iterations salt data

end Functions

/-- The key as a function of the bytes of the salt. -/
def derivedKey (password salt : Bytes) (count : Int64) : Bytes :=
  (rehash P (count - 1).toInt.toNat (P.sum256 (password ++ salt))).toList

/-- The nonce and the sealed text. -/
def sealed (password : Bytes) (iterations : Int64) (text salt nonce : Bytes) : Bytes :=
  nonce ++ P.sealText (derivedKey P password salt iterations) nonce text

/-- The text behind a nonce. -/
def opened (password : Bytes) (iterations : Int64) (salt data : Bytes) : Except String Bytes :=
  if data.length < nonceSize then .error "ciphertext too short"
  else
    P.openText (derivedKey P password salt iterations) (data.take nonceSize) (data.drop nonceSize)

/-- A salt cut or filled with zeros to its size. -/
def paddedSalt (fixedSalt : Bytes) : Bytes :=
  fixedSalt.take saltSize ++ (List.replicate saltSize 0).drop fixedSalt.length

/-- What decryption comes to with the salt in the data. -/
def decrypted (password : Bytes) (iterations : Int64) (cipherText : Bytes) : Except String Bytes :=
  match P.decodeString cipherText with
  | .error err => .error err
  | .ok data =>
    if data.length < saltSize then .error "ciphertext too short"
    else opened P password iterations (data.take saltSize) (data.drop saltSize)

/-- What decryption comes to with a salt of its own. -/
def decryptedWithFixedSalt (password : Bytes) (iterations : Int64) (cipherText fixedSalt : Bytes) :
    Except String Bytes :=
  match P.decodeString cipherText with
  | .error err => .error err
  | .ok data => opened P password iterations (paddedSalt fixedSalt) data

section Refinement

variable (spare : Nat → Nat) {m : Memory UInt8} {salt data : Slice} {saltBytes dataBytes : Bytes}
  (password : Bytes) (iterations : Int64)

/-- Deriving a key changes nothing that is in use. -/
theorem exec_getDerivedKey (hsalt : salt.Holds m saltBytes) :
    ∃ m', (getDerivedKey P spare password salt iterations).exec m =
        (.ok (derivedKey P password saltBytes iterations), m') ∧
      ∀ t bs, Slice.Holds m t bs → Slice.Holds m' t bs := by
  obtain ⟨m₁, buf, halloc, hbuf, harray, hkeep₁⟩ := exec_alloc 0 spare m password
  obtain ⟨m₂, salted, happend, hsalted, hkeep₂⟩ := exec_append 0 spare hbuf saltBytes
  refine ⟨m₂, ?_, fun t bs ht => hkeep₂ t bs ?_ (hkeep₁ t bs ht)⟩
  · simp only [getDerivedKey, Go.exec_bind, halloc, exec_read (hkeep₁ salt _ hsalt), happend,
      exec_read hsalted]
    rfl
  · rw [harray]
    exact Nat.ne_of_lt ht.array_lt

/-- A derived key is long enough for its cipher. -/
theorem newCipher_derivedKey (salt : Bytes) :
    newCipher (derivedKey P password salt iterations) =
      .ok (derivedKey P password salt iterations) := by
  rw [newCipher, if_pos]
  right
  right
  rw [derivedKey, Vector.length_toList]

/-- A new slice of zeros that is filled. -/
theorem exec_filled (m : Memory UInt8) (n : Nat) (bytes : Bytes) : ∃ m₁ s m₂,
    (alloc 0 (fun _ => 0) (List.replicate n (0 : UInt8))).exec m = (.ok s, m₁) ∧
    (s.copy bytes).exec m₁ = (.ok (), m₂) ∧
    s.Holds m₂ (bytes.take n ++ (List.replicate n 0).drop bytes.length) ∧ s.array = m.length ∧
      ∀ t bs, Slice.Holds m t bs → Slice.Holds m₂ t bs := by
  obtain ⟨m₁, s, halloc, hs, harray, hkeep₁⟩ :=
    exec_alloc 0 (fun _ => 0) m (List.replicate n (0 : UInt8))
  obtain ⟨m₂, hcopy, hfilled, hkeep₂⟩ := exec_copy hs bytes
  rw [List.length_replicate] at hfilled
  refine ⟨m₁, s, m₂, halloc, hcopy, hfilled, harray, fun t bs ht => hkeep₂ t bs ?_ (hkeep₁ t bs ht)⟩
  rw [harray]
  exact Nat.ne_of_lt ht.array_lt

/-- Bytes of the right number fill a slice. -/
theorem take_append_drop_replicate {n : Nat} (bytes : Vector UInt8 n) :
    bytes.toList.take n ++ (List.replicate n 0).drop bytes.toList.length = bytes.toList := by
  have hlen := bytes.length_toList
  rw [List.take_of_length_le (by omega), List.drop_of_length_le (by simp), List.append_nil]

private theorem exec_sealWithSalt (hsalt : salt.Holds m saltBytes) (text : Bytes)
    (nonce : Vector UInt8 nonceSize) : ∃ m' c,
    (sealWithSalt P spare password iterations text salt (.ok nonce)).exec m = (.ok (.ok c), m') ∧
      c.Holds m' (sealed P password iterations text saltBytes nonce.toList) ∧
      ∀ t bs, Slice.Holds m t bs → Slice.Holds m' t bs := by
  obtain ⟨m₁, hkey, hkeep₁⟩ := exec_getDerivedKey P spare password iterations hsalt
  obtain ⟨m₂, s, m₃, halloc, hcopy, hs, harray, hkeep₂⟩ := exec_filled m₁ nonceSize nonce.toList
  rw [take_append_drop_replicate] at hs
  obtain ⟨m₄, c, happend, hc, hkeep₃⟩ := exec_append 0 spare hs
    (P.sealText (derivedKey P password saltBytes iterations) nonce.toList text)
  refine ⟨m₄, c, ?_, hc, fun t bs ht => hkeep₃ t bs ?_ (hkeep₂ t bs (hkeep₁ t bs ht))⟩
  · have hseal : (gcmSeal P spare (derivedKey P password saltBytes iterations) s s text).exec m₃ =
        (.ok c, m₄) := by
      rw [gcmSeal, Go.exec_bind, exec_read hs]
      dsimp only
      rw [if_neg (by rw [Vector.length_toList]; simp), happend]
    simp only [sealWithSalt, Go.exec_bind, hkey, newCipher_derivedKey, halloc, hcopy, hseal]
    rfl
  · rw [harray]
    exact Nat.ne_of_lt (hkeep₁ t bs ht).array_lt

/-- Behind the length check nothing is sliced out of range. -/
theorem exec_openWithSalt (hsalt : salt.Holds m saltBytes) (hdata : data.Holds m dataBytes) :
    ∃ m', (openWithSalt P spare password iterations salt data).exec m =
      (.ok (opened P password iterations saltBytes dataBytes), m') := by
  obtain ⟨m₁, hkey, hkeep⟩ := exec_getDerivedKey P spare password iterations hsalt
  have hdata₁ := hkeep data dataBytes hdata
  refine ⟨m₁, ?_⟩
  simp only [openWithSalt, Go.exec_bind, hkey, newCipher_derivedKey, opened, hdata.len]
  by_cases hshort : dataBytes.length < nonceSize
  · rw [if_pos hshort, if_pos hshort]
    rfl
  · obtain ⟨nonce, hslice, hnonce⟩ := exec_slice hdata₁ (Nat.zero_le nonceSize) (by omega)
    obtain ⟨rest, hslice', hrest⟩ :=
      exec_slice hdata₁ (i := nonceSize) (by omega) (Nat.le_refl _)
    rw [List.drop_zero] at hnonce
    rw [List.take_length] at hrest
    have hsize : (dataBytes.take nonceSize).length = nonceSize := by
      rw [List.length_take]
      omega
    rw [if_neg hshort, if_neg hshort, Go.exec_bind, hslice]
    simp only [Go.exec_bind, hslice', gcmOpen, exec_read hnonce, hsize, ne_eq,
      not_true_eq_false, if_false, exec_read hrest]
    rfl

private theorem exec_encrypt (m : Memory UInt8) (text : Bytes) (salt : Vector UInt8 saltSize)
    (nonce : Vector UInt8 nonceSize) : ∃ m',
    (encrypt P spare password iterations text (.ok salt) (.ok nonce)).exec m =
      (.ok (.ok (P.encodeToString (salt.toList ++
        sealed P password iterations text salt.toList nonce.toList))), m') := by
  obtain ⟨m₁, s, m₂, halloc, hcopy, hs, -, -⟩ := exec_filled m saltSize salt.toList
  rw [take_append_drop_replicate] at hs
  obtain ⟨m₃, c, hseal, hc, hkeep⟩ := exec_sealWithSalt P spare password iterations hs text nonce
  obtain ⟨m₄, result, happend, hresult, -⟩ := exec_append 0 spare (hkeep s _ hs)
    (sealed P password iterations text salt.toList nonce.toList)
  refine ⟨m₄, ?_⟩
  simp only [encrypt, Go.exec_bind, halloc, hcopy, hseal, exec_read hc, happend,
    exec_read hresult]
  rfl

private theorem exec_decrypt (m : Memory UInt8) (cipherText : Bytes) :
    ∃ m', (decrypt P spare password iterations cipherText).exec m =
      (.ok (decrypted P password iterations cipherText), m') := by
  unfold decrypt decrypted
  cases P.decodeString cipherText with
  | error err => exact ⟨m, rfl⟩
  | ok decoded =>
    obtain ⟨m₁, data, halloc, hdata, -, -⟩ := exec_alloc 0 spare m decoded
    dsimp only
    rw [Go.exec_bind, halloc]
    dsimp only
    rw [hdata.len]
    by_cases hshort : decoded.length < saltSize
    · rw [if_pos hshort, if_pos hshort]
      exact ⟨m₁, rfl⟩
    · obtain ⟨salt, hslice, hsalt⟩ := exec_slice hdata (Nat.zero_le saltSize) (by omega)
      obtain ⟨rest, hslice', hrest⟩ :=
        exec_slice hdata (i := saltSize) (by omega) (Nat.le_refl _)
      rw [List.drop_zero] at hsalt
      rw [List.take_length] at hrest
      obtain ⟨m', hopen⟩ := exec_openWithSalt P spare password iterations hsalt hrest
      refine ⟨m', ?_⟩
      rw [if_neg hshort, if_neg hshort, Go.exec_bind, hslice]
      dsimp only
      rw [Go.exec_bind, hslice']
      exact hopen

private theorem exec_encryptWithFixedSalt (m : Memory UInt8) (text fixedSalt : Bytes)
    (nonce : Vector UInt8 nonceSize) : ∃ m',
    (encryptWithFixedSalt P spare password iterations text fixedSalt (.ok nonce)).exec m =
      (.ok (.ok (P.encodeToString
        (sealed P password iterations text (paddedSalt fixedSalt) nonce.toList))), m') := by
  obtain ⟨m₁, s, m₂, halloc, hcopy, hs, -, -⟩ := exec_filled m saltSize fixedSalt
  obtain ⟨m₃, c, hseal, hc, -⟩ := exec_sealWithSalt P spare password iterations hs text nonce
  refine ⟨m₃, ?_⟩
  simp only [encryptWithFixedSalt, Go.exec_bind, halloc, hcopy, hseal, exec_read hc]
  rfl

private theorem exec_decryptWithFixedSalt (m : Memory UInt8) (cipherText fixedSalt : Bytes) :
    ∃ m', (decryptWithFixedSalt P spare password iterations cipherText fixedSalt).exec m =
      (.ok (decryptedWithFixedSalt P password iterations cipherText fixedSalt), m') := by
  unfold decryptWithFixedSalt decryptedWithFixedSalt
  cases P.decodeString cipherText with
  | error err => exact ⟨m, rfl⟩
  | ok decoded =>
    obtain ⟨m₁, data, halloc, hdata, -, -⟩ := exec_alloc 0 spare m decoded
    obtain ⟨m₂, s, m₃, halloc', hcopy, hs, -, hkeep⟩ := exec_filled m₁ saltSize fixedSalt
    obtain ⟨m', hopen⟩ := exec_openWithSalt P spare password iterations hs (hkeep data _ hdata)
    refine ⟨m', ?_⟩
    simp only [Go.exec_bind, halloc, halloc', hcopy]
    exact hopen

/-- What was sealed is opened with the same salt. -/
theorem opened_sealed (text salt : Bytes) (nonce : Vector UInt8 nonceSize) :
    opened P password iterations salt (sealed P password iterations text salt nonce.toList) =
      .ok text := by
  have hlen : nonce.toList.length = nonceSize := nonce.length_toList
  unfold opened sealed
  rw [if_neg (by rw [List.length_append]; omega), List.take_left' hlen, List.drop_left' hlen]
  exact P.open_seal ..

private theorem decrypted_encrypted (text : Bytes) (salt : Vector UInt8 saltSize)
    (nonce : Vector UInt8 nonceSize) :
    decrypted P password iterations (P.encodeToString (salt.toList ++
      sealed P password iterations text salt.toList nonce.toList)) = .ok text := by
  have hlen : salt.toList.length = saltSize := salt.length_toList
  unfold decrypted
  rw [P.decode_encode]
  dsimp only
  rw [if_neg (by rw [List.length_append]; omega), List.take_left' hlen, List.drop_left' hlen]
  exact opened_sealed P password iterations text salt.toList nonce

private theorem decryptedWithFixedSalt_encrypted (text fixedSalt : Bytes)
    (nonce : Vector UInt8 nonceSize) :
    decryptedWithFixedSalt P password iterations (P.encodeToString
      (sealed P password iterations text (paddedSalt fixedSalt) nonce.toList)) fixedSalt =
        .ok text := by
  unfold decryptedWithFixedSalt
  rw [P.decode_encode]
  exact opened_sealed P password iterations text (paddedSalt fixedSalt) nonce

end Refinement

/-- Both ciphertexts are decrypted to their texts, for all random bytes and whatever room new
arrays get, and no ciphertext makes a decryptor panic. -/
theorem decrypt_encrypt_never_panics (spare : Nat → Nat) (password : Bytes) (iterations : Int64) :
    (∀ text randomSalt randomNonce m, ∃ cipherText m',
      (encrypt P spare password iterations text (.ok randomSalt) (.ok randomNonce)).exec m =
        (.ok (.ok cipherText), m') ∧
      ∀ m, ∃ m', (decrypt P spare password iterations cipherText).exec m =
        (.ok (.ok text), m')) ∧
    (∀ text fixedSalt randomNonce m, ∃ cipherText m',
      (encryptWithFixedSalt P spare password iterations text fixedSalt (.ok randomNonce)).exec m =
        (.ok (.ok cipherText), m') ∧
      ∀ m, ∃ m', (decryptWithFixedSalt P spare password iterations cipherText fixedSalt).exec m =
        (.ok (.ok text), m')) ∧
    ∀ cipherText fixedSalt m,
      (∃ result m', (decrypt P spare password iterations cipherText).exec m = (.ok result, m')) ∧
      ∃ result m', (decryptWithFixedSalt P spare password iterations cipherText fixedSalt).exec m =
        (.ok result, m') := by
  refine ⟨fun text randomSalt randomNonce m => ?_, fun text fixedSalt randomNonce m => ?_,
    fun cipherText fixedSalt m => ⟨?_, ?_⟩⟩
  · obtain ⟨m', henc⟩ := exec_encrypt P spare password iterations m text randomSalt randomNonce
    refine ⟨_, m', henc, fun m => ?_⟩
    rw [← decrypted_encrypted P password iterations text randomSalt randomNonce]
    exact exec_decrypt P spare password iterations m _
  · obtain ⟨m', henc⟩ :=
      exec_encryptWithFixedSalt P spare password iterations m text fixedSalt randomNonce
    refine ⟨_, m', henc, fun m => ?_⟩
    rw [← decryptedWithFixedSalt_encrypted P password iterations text fixedSalt randomNonce]
    exact exec_decryptWithFixedSalt P spare password iterations m _ _
  · exact ⟨_, exec_decrypt P spare password iterations m cipherText⟩
  · exact ⟨_, exec_decryptWithFixedSalt P spare password iterations m cipherText fixedSalt⟩

section Standard

variable (hash : Bytes → Vector UInt8 32) (key nonce : Bytes)

/-- A text under a key stream, as GCM encrypts it. -/
def masked (text : Bytes) : Bytes :=
  text.mapIdx fun i b => b ^^^ (hash (key ++ nonce ++ [i.toUInt8]))[0]

/-- The 16 bytes that GCM puts behind a ciphertext. -/
def tag (body : Bytes) : Bytes := (hash (body ++ nonce ++ key)).toList.take 16

private theorem masked_masked (text : Bytes) :
    masked hash key nonce (masked hash key nonce text) = text := by
  have hxor : ∀ b k : UInt8, b ^^^ k ^^^ k = b := by
    intro b k
    rw [UInt8.xor_assoc, UInt8.xor_self, UInt8.xor_zero]
  simp [masked, List.mapIdx_eq_iff, Function.comp_def, hxor]

/-- Two hexadecimal digits for each byte. -/
def hexText (data : Bytes) : Bytes :=
  data.flatMap fun b => [b / 16, b % 16].map fun d => if d < 10 then 48 + d else 87 + d

/-- The bytes of a hexadecimal text. -/
def unhexText : Bytes → Option Bytes
  | [] => some []
  | [_] => none
  | hi :: lo :: rest => do
    return ((← unhex hi) * 16 + (← unhex lo)) :: (← unhexText rest)

private theorem unhexText_hexText (data : Bytes) : unhexText (hexText data) = some data := by
  induction data with
  | nil => rfl
  | cons b data ih =>
    have hbyte : ∀ n < 256, unhexText (hexText [UInt8.ofNat n]) = some [UInt8.ofNat n] := by
      decide +kernel
    have hb := hbyte b.toNat b.toNat_lt
    simp only [UInt8.ofNat_toNat, hexText, List.flatMap_cons, List.map_cons] at hb ih ⊢
    simp_all [unhexText, Option.bind_eq_some_iff]

/-- Primitives that meet the laws over any hash, with hexadecimal text instead of base64. -/
def standard : Primitives where
  sum256 := hash
  encodeToString := hexText
  decodeString text := (unhexText text).elim (.error "illegal data") .ok
  sealText key nonce text :=
    masked hash key nonce text ++ tag hash key nonce (masked hash key nonce text)
  openText key nonce data :=
    let body := data.take (data.length - 16)
    if data.drop (data.length - 16) = tag hash key nonce body then .ok (masked hash key nonce body)
    else .error "cipher: message authentication failed"
  decode_encode data := by rw [unhexText_hexText]; rfl
  open_seal key nonce text := by
    have hlen : ∀ body, body.length + (tag hash key nonce body).length - 16 = body.length := by
      simp [tag]
    simp [hlen, masked_masked]

end Standard

/-- A text is decrypted in three rounds, and a cut ciphertext is refused. -/
theorem decrypt_encrypt_never_panics_standard :
    let P := standard fun data => .ofFn fun i => data.foldl (· * 33 + ·) i.val.toUInt8
    (∃ cipherText m', (encrypt P (fun _ => 8) [112, 119] 3 [104, 105]
        (.ok (Vector.replicate 16 7)) (.ok (Vector.replicate 12 9))).exec [] =
          (.ok (.ok cipherText), m') ∧
      ∀ m, ∃ m', (decrypt P (fun _ => 8) [112, 119] 3 cipherText).exec m =
        (.ok (.ok [104, 105]), m')) ∧
    ((decrypt P (fun _ => 8) [112, 119] 3 (hexText (List.replicate 20 7))).exec []).1 =
      .ok (.error "ciphertext too short") :=
  ⟨(decrypt_encrypt_never_panics _ (fun _ => 8) [112, 119] 3).1 _ _ _ _, rfl⟩

end Stardust.Jwt
