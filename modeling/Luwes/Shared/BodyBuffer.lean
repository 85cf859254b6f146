import Luwes.Shared.Base

/-!
# Body buffers

`BodyBuffer` of `shared/base.go` is an interface; the host implements it.  The class has its methods,
and `LawfulBodyBuffer` says what the comments on the interface say: `Drain` removes bytes from the
beginning and `Append` adds them to the end.  How the bytes are cut into chunks is left open.

`FakeBodyBuffer` is the implementation the tests use, one chunk at most.
-/

namespace Luwes

/-- `BodyBuffer`. -/
class BodyBuffer (β : Type) where
  getChunks : β → List UnsafeEnvoyBuffer
  getSize : β → ℕ
  drain : β → ℕ → β
  append : β → Bytes → β

namespace BodyBuffer

variable {β : Type} [BodyBuffer β]

/-- All bytes of the buffer. -/
def content (b : β) : Bytes := chunkBytes (getChunks b)

end BodyBuffer

open BodyBuffer

/-- What `shared/base.go` documents about the methods. -/
class LawfulBodyBuffer (β : Type) [BodyBuffer β] : Prop where
  getSize_eq : ∀ b : β, getSize b = (content b).length
  content_drain : ∀ (b : β) (n : ℕ), content (drain b n) = (content b).drop n
  content_append : ∀ (b : β) (data : Bytes), content (append b data) = content b ++ data

attribute [simp] LawfulBodyBuffer.getSize_eq LawfulBodyBuffer.content_drain
  LawfulBodyBuffer.content_append

/-! ## The buffer of the tests -/

/-- `FakeBodyBuffer`. -/
structure FakeBodyBuffer where
  body : Bytes
  deriving DecidableEq, Repr

instance : BodyBuffer FakeBodyBuffer where
  getChunks b := if b.body.length = 0 then [] else [⟨some b.body⟩]
  getSize b := b.body.length
  drain b n := if n ≥ b.body.length then ⟨[]⟩ else ⟨b.body.drop n⟩
  append b data := ⟨b.body ++ data⟩

lemma FakeBodyBuffer.content_eq (b : FakeBodyBuffer) : content b = b.body := by
  by_cases h : b.body = []
  · simp [content, getChunks, h]
  · simp [content, getChunks, h, UnsafeEnvoyBuffer.bytes]

instance : LawfulBodyBuffer FakeBodyBuffer where
  getSize_eq b := by rw [b.content_eq]; rfl
  content_drain b n := by
    rw [FakeBodyBuffer.content_eq, FakeBodyBuffer.content_eq]
    by_cases h : n ≥ b.body.length
    · simp [drain, h, List.drop_eq_nil_of_le h]
    · simp [drain, h]
  content_append b data := by
    rw [FakeBodyBuffer.content_eq, FakeBodyBuffer.content_eq]
    rfl

end Luwes
