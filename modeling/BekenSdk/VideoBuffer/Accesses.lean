import BekenSdk.VideoBuffer.Buffer

/-! The accesses of the receive handler: where it copies to, and what its look for the end markers reads. The tests of a
conjunction stop at the first that fails, so a frame that does not begin like an image is never looked at from behind.
-/

set_option autoImplicit false

namespace BekenSdk.VideoBuffer
open Base

namespace Vbuf

/-- The addresses that `rightImage` reads, in their order. -/
def scanned (g : Vbuf) (memory : Cells) : List Nat :=
  let sofPtr := g.bufBase
  let eofPtr := g.bufBase + (g.frameLen - 7)
  let crcPtr := eofPtr + 3
  let at' (ptr : UInt32) : UInt8 := memory ptr.toNat
  sofPtr.toNat ::
    if at' sofPtr ≠ 0xff then [] else (sofPtr + 1).toNat ::
    if at' (sofPtr + 1) ≠ 0xd8 then [] else eofPtr.toNat ::
    if at' eofPtr ≠ 0xff then [] else (eofPtr + 1).toNat ::
    if at' (eofPtr + 1) ≠ 0xd9 then [] else
      [crcPtr.toNat, (crcPtr + 1).toNat, (crcPtr + 2).toNat, (crcPtr + 3).toNat]

/-- The bytes of the frame under way. -/
def Received (g : Vbuf) (a : Nat) : Prop :=
  g.startBuf = .copy ∧ g.bufBase.toNat ≤ a ∧ a < g.bufBase.toNat + g.frameLen.toNat

/-- The buffer that a call of `video_buffer_read_frame` has on offer. -/
def Offered (g : Vbuf) (a : Nat) : Prop := g.bufBase.toNat ≤ a ∧ a < g.bufBase.toNat + g.bufLen.toNat

/-- The frame is long enough for what its first bytes make the handler look at. -/
def Scannable (g : Vbuf) (memory : Cells) : Prop :=
  7 ≤ g.frameLen.toNat ∨
    2 ≤ g.frameLen.toNat ∧ ¬(memory g.bufBase.toNat = 0xff ∧ memory (g.bufBase.toNat + 1) = 0xd8) ∨
    g.frameLen.toNat = 1 ∧ memory g.bufBase.toNat ≠ 0xff

instance (g : Vbuf) (memory : Cells) : Decidable (g.Scannable memory) := inferInstanceAs (Decidable (_ ∨ _))

variable {g : Vbuf} {memory other : Cells}

/-- The end markers lie inside the frame just when it has seven bytes. -/
theorem eofPtr_received (bounded : g.bufBase.toNat + g.frameLen.toNat < 2 ^ 32) :
    (g.bufBase.toNat ≤ (g.bufBase + (g.frameLen - 7)).toNat ∧
      (g.bufBase + (g.frameLen - 7)).toNat < g.bufBase.toNat + g.frameLen.toNat ↔ 7 ≤ g.frameLen.toNat) ∧
    (7 ≤ g.frameLen.toNat → (g.bufBase + (g.frameLen - 7)).toNat = g.bufBase.toNat + g.frameLen.toNat - 7) := by
  have sub : (g.frameLen - 7).toNat = (2 ^ 32 - 7 + g.frameLen.toNat) % 2 ^ 32 := UInt32.toNat_sub _ _
  rw [UInt32.toNat_add, sub]
  omega

theorem toNat_add_small {ptr : UInt32} {more : UInt32} (small : ptr.toNat + more.toNat < 2 ^ 32) :
    (ptr + more).toNat = ptr.toNat + more.toNat := by
  rw [UInt32.toNat_add, Nat.mod_eq_of_lt small]

/-- The look at the frame stays inside it just when the frame is long enough. -/
theorem scanned_iff (bounded : g.bufBase.toNat + g.frameLen.toNat < 2 ^ 32) (copying : g.startBuf = .copy) :
    (∀ a ∈ g.scanned memory, g.Received a) ↔ g.Scannable memory := by
  obtain ⟨inside, eof⟩ := eofPtr_received bounded
  unfold scanned Scannable Received
  simp only [copying, true_and, List.forall_mem_cons]
  by_cases none : g.frameLen.toNat = 0
  · omega
  have next : (g.bufBase + 1).toNat = g.bufBase.toNat + 1 := toNat_add_small (by simp; omega)
  rw [next]
  by_cases first : memory g.bufBase.toNat = 0xff
  · rw [if_neg (not_not.2 first), List.forall_mem_cons]
    by_cases second : memory (g.bufBase.toNat + 1) = 0xd8
    · rw [if_neg (not_not.2 second), List.forall_mem_cons, inside]
      simp only [first, second, and_self, not_true, and_false, ne_eq, or_false]
      constructor
      · exact fun all => all.2.2.1
      · intro long
        have first' := eof long
        have near : ∀ k : UInt32, k.toNat < 7 →
            (g.bufBase + (g.frameLen - 7) + k).toNat = g.bufBase.toNat + g.frameLen.toNat - 7 + k.toNat := by
          intro k few
          rw [toNat_add_small (by omega), first']
        have one := near 1 (by decide)
        have three := near 3 (by decide)
        have far : ∀ k : UInt32, k.toNat < 4 →
            (g.bufBase + (g.frameLen - 7) + 3 + k).toNat = g.bufBase.toNat + g.frameLen.toNat - 4 + k.toNat := by
          intro k few
          simp only [UInt32.reduceToNat] at three
          rw [toNat_add_small (by omega), three]
          omega
        have crcNext := far 1 (by decide)
        have crcThird := far 2 (by decide)
        have crcLast := far 3 (by decide)
        simp only [UInt32.reduceToNat] at one three crcNext crcThird crcLast
        refine ⟨by omega, by omega, long, ?_⟩
        split
        · exact fun a member => absurd member List.not_mem_nil
        rw [List.forall_mem_cons]
        refine ⟨by rw [one]; omega, ?_⟩
        split
        · exact fun a member => absurd member List.not_mem_nil
        simp only [List.forall_mem_cons, three, crcNext, crcThird, crcLast]
        refine ⟨by omega, by omega, by omega, by omega, ?_⟩
        exact fun a member => absurd member List.not_mem_nil
    · rw [if_pos second]
      simp [first, second]
      omega
  · rw [if_pos first]
    simp [first]
    omega

end Vbuf

namespace Video

/-- The addresses that the next step of the handler writes. -/
def written (s : Video) : List Nat :=
  match s.recv with
  | .fits p => List.range' s.vbuf.bufPtr.toNat p.payload.length
  | _ => []

/-- The addresses that the next step of the handler reads, other than in its packet. -/
def scanned (s : Video) : List Nat :=
  match s.recv with
  | .counted _ => s.vbuf.scanned s.memory
  | _ => []

end Video

end BekenSdk.VideoBuffer
