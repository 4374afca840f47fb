/-
`cipher.AEAD` as the FXP runtime uses it: AES-GCM behind `Seal` and `Open`.

The cipher itself is not part of this development.
-/
import Mathlib.Data.List.Basic

namespace ForwardX.Fxp

/-- `cipher.AEAD.Overhead` of AES-GCM: the length of the authentication tag. -/
def aeadOverhead : ℕ := 16

/-- An AEAD, indexed by its key. `Seal` and `Open` take the nonce, the message
and the additional data, as in Go. -/
structure Aead where
  Seal : (key nonce plain ad : List UInt8) → List UInt8
  Open : (key nonce sealed ad : List UInt8) → Option (List UInt8)
  open_seal : ∀ key nonce plain ad, Open key nonce (Seal key nonce plain ad) ad = some plain
  seal_length : ∀ key nonce plain ad,
    (Seal key nonce plain ad).length = plain.length + aeadOverhead

/-! ## A concrete AEAD

The interface is inhabited: append a tag read off the key, and refuse whatever
does not end in it. It authenticates the key and nothing else, which is what a
fixed run needs from it. -/

/-- The tag of `tagAead`: the first sixteen bytes of the key, zero-padded. -/
def keyTag (key : List UInt8) : List UInt8 :=
  (key ++ List.replicate aeadOverhead 0).take aeadOverhead

@[simp] theorem keyTag_length (key : List UInt8) : (keyTag key).length = aeadOverhead := by
  simp only [keyTag, List.length_take, List.length_append, List.length_replicate]
  omega

def tagAead : Aead where
  Seal key _ plain _ := plain ++ keyTag key
  Open key _ sealed _ :=
    if sealed.drop (sealed.length - aeadOverhead) = keyTag key
    then some (sealed.take (sealed.length - aeadOverhead)) else none
  open_seal := by
    intro key nonce plain ad
    have hlen : (plain ++ keyTag key).length - aeadOverhead = plain.length := by
      rw [List.length_append, keyTag_length, Nat.add_sub_cancel]
    rw [hlen, List.drop_left, List.take_left, if_pos rfl]
  seal_length := by
    intro key nonce plain ad
    rw [List.length_append, keyTag_length]

end ForwardX.Fxp
