import BekenSdk.VideoBuffer.Accesses
import BekenSdk.VideoBuffer.Integrity

/-! The receive handler stays in the buffer on offer and in the frame it has so far just when the buffer is not taken back
under it and no frame ends that is too short to be looked at.
-/

set_option autoImplicit false

namespace BekenSdk.VideoBuffer
open Base

namespace Video

/-- What the handler does next stays in the buffer on offer, and in the frame that it has so far. -/
structure InBounds (s : Video) : Prop where
  writes : ∀ a ∈ s.written, s.vbuf.Offered a
  reads : ∀ a ∈ s.scanned, s.vbuf.Received a

/-- What is known at each place of the handler. Without a buffer nothing is copied. -/
def Steady (s : Video) : Prop :=
  match s.recv with
  | .fits p => (p.payload ≠ [] → s.vbuf.startBuf = .copy ∧ s.vbuf.bufPtr ≠ 0) ∧
      (s.vbuf.startBuf = .copy → s.vbuf.frameLen.toNat + p.payload.length ≤ s.vbuf.bufLen.toNat)
  | .copied p => s.vbuf.startBuf = .copy → s.vbuf.frameLen.toNat + p.payload.length ≤ s.vbuf.bufLen.toNat ∧
      (p.payload ≠ [] → s.vbuf.bufPtr ≠ 0)
  | .counted _ => s.vbuf.startBuf = .copy ∧ s.vbuf.Scannable s.memory
  | _ => True

/-- The copy pointer is behind the frame so far, or it is `NULL`, with no byte of a frame, where the frame was begun
after its buffer had been taken back. -/
structure Placed (s : Video) : Prop where
  sized : ∀ p, s.recv.packet = some p → sizeofVbHdr ≤ p.data.length
  present : ∀ r user, (s.reader r).asked = some user → user.buf ≠ 0
  bounded : s.vbuf.bufBase.toNat + s.vbuf.bufLen.toNat < 2 ^ 32
  taken : s.vbuf.bufBase = 0 → s.vbuf.bufLen = 0
  inside : s.vbuf.startBuf = .copy → s.vbuf.frameLen.toNat ≤ s.vbuf.bufLen.toNat
  pointer : s.vbuf.startBuf = .copy → s.vbuf.bufPtr = 0 ∧ s.vbuf.frameLen = 0 ∨
    s.vbuf.bufBase ≠ 0 ∧ s.vbuf.bufPtr.toNat = s.vbuf.bufBase.toNat + s.vbuf.frameLen.toNat
  steady : s.Steady

end Video

/-- No call of `video_buffer_read_frame` puts its buffer in the place of another one. -/
def OneOffer (s : Video) (event : Event) : Prop :=
  match event with
  | .read r _ =>
    match s.reader r with
    | .drained _ => s.vbuf.bufBase = 0
    | _ => True
  | _ => True

instance (s : Video) (event : Event) : Decidable (OneOffer s event) := by
  induction event using Event.casesOn with
  | read r timeout =>
    unfold OneOffer
    dsimp only
    generalize s.reader r = reader
    induction reader using ReadAt.casesOn <;> infer_instance
  | _ => exact inferInstanceAs (Decidable True)

/-- A buffer is not taken back between the test of `left_len` and the copy, nor before the look at the frame. A packet
with bytes is only taken into a frame that was begun in a buffer, and the last one only if the frame is then long enough
to be looked at. -/
def Careful (s : Video) (event : Event) : Prop :=
  match event with
  | .recv =>
    match s.recv with
    | .begun p => s.vbuf.Expects p → p.orgLen ≤ s.vbuf.leftLen → p.payload ≠ [] → s.vbuf.bufPtr ≠ 0
    | .copied p => p.isEof = 1 → s.vbuf.startBuf = .copy ∧ (s.vbuf.count p).Scannable s.memory
    | _ => True
  | .read r _ =>
    match s.reader r, s.recv with
    | .outcome _ _ _, .fits p => p.payload = []
    | .outcome _ _ _, .counted _ => False
    | _, _ => True
  | _ => True

instance (s : Video) (event : Event) : Decidable (Careful s event) := by
  induction event using Event.casesOn with
  | recv =>
    unfold Careful
    dsimp only
    generalize s.recv = recv
    induction recv using RecvAt.casesOn <;> infer_instance
  | read r timeout =>
    unfold Careful
    dsimp only
    generalize s.reader r = reader, s.recv = recv
    induction reader using ReadAt.casesOn <;> induction recv using RecvAt.casesOn <;> infer_instance
  | _ => exact inferInstanceAs (Decidable True)

namespace Video
variable {s t : Video} {p : Packet}

theorem Placed.inBounds (placed : s.Placed) : s.InBounds := by
  have steady := placed.steady
  unfold Steady at steady
  constructor
  · intro a member
    unfold written at member
    cases place : s.recv with
    | fits p =>
      rw [place] at steady member
      have window := List.mem_range'_1.mp member
      have some : p.payload ≠ [] := by
        rintro none
        rw [none, List.length_nil] at window
        omega
      obtain ⟨copying, present⟩ := steady.1 some
      have room := steady.2 copying
      have attached := (placed.pointer copying).resolve_left fun detached => present detached.1
      unfold Vbuf.Offered
      omega
    | idle | entered p | begun p | copied p | counted p | judged rightImage | overflown | waking =>
      rw [place] at member
      exact absurd member List.not_mem_nil
  · intro a member
    unfold scanned at member
    cases place : s.recv with
    | counted p =>
      rw [place] at steady member
      have inside := placed.inside steady.1
      have bounded := placed.bounded
      exact (Vbuf.scanned_iff (by omega) steady.1).2 steady.2 a member
    | idle | entered p | begun p | fits p | copied p | judged rightImage | overflown | waking =>
      rw [place] at member
      exact absurd member List.not_mem_nil

theorem opened_placed (memory : Cells) : (opened memory).Placed where
  sized _ same := nomatch same
  present _ _ asked := nomatch asked
  bounded := Nat.two_pow_pos 32
  taken _ := rfl
  inside copying := BufSta.noConfusion copying
  pointer copying := BufSta.noConfusion copying
  steady := trivial

/-! ## The handler -/

/-- The handler goes on without a change of the fields that matter. -/
theorem Placed.moved (placed : s.Placed) (vbuf : t.vbuf = s.vbuf) (reader : t.reader = s.reader)
    (packet : ∀ q, t.recv.packet = some q → sizeofVbHdr ≤ q.data.length) (steady : t.Steady) : t.Placed where
  sized := packet
  present := by rw [reader]; exact placed.present
  bounded := by rw [vbuf]; exact placed.bounded
  taken := by rw [vbuf]; exact placed.taken
  inside := by rw [vbuf]; exact placed.inside
  pointer := by rw [vbuf]; exact placed.pointer
  steady := steady

/-- A frame that is over leaves nothing to know. -/
theorem Placed.stopped {sta : BufSta} (placed : s.Placed) (halted : sta ≠ .copy) :
    ((s.setVbuf (Vbuf.setStartBuf sta)).setRecv .waking).Placed where
  sized _ same := nomatch same
  present := placed.present
  bounded := placed.bounded
  taken := placed.taken
  inside copying := absurd copying halted
  pointer copying := absurd copying halted
  steady := trivial

theorem Placed.push (placed : s.Placed) (rest : s.recv = .idle) : (s.push p).Placed := by
  have kept : (({ s with pushed := s.pushed ++ [p] } : Video)).Placed := by
    refine placed.moved rfl rfl placed.sized ?_
    unfold Steady
    dsimp only
    rw [rest]
    trivial
  unfold Video.push
  dsimp only
  split
  · split
    · exact kept
    next long =>
      refine kept.moved rfl rfl ?_ trivial
      intro q same
      obtain rfl := Option.some.inj same
      exact Nat.le_of_not_lt long
  · exact kept

theorem Placed.entered (placed : s.Placed) (place : s.recv = .entered p) : s.recvStep.Placed := by
  have packet : ∀ q, (RecvAt.begun p).packet = some q → sizeofVbHdr ≤ q.data.length := fun q same =>
    placed.sized q (by rw [place]; exact same)
  rw [Video.recvStep, place]
  dsimp only
  split
  · refine ⟨packet, placed.present, placed.bounded, placed.taken, fun _ => Nat.zero_le _, fun _ => ?_, trivial⟩
    by_cases based : s.vbuf.bufBase = 0
    · exact .inl ⟨based, rfl⟩
    · exact .inr ⟨based, rfl⟩
  · exact placed.moved rfl rfl packet trivial

theorem Placed.begun (placed : s.Placed) (place : s.recv = .begun p)
    (attached : s.vbuf.Expects p → p.orgLen ≤ s.vbuf.leftLen → p.payload ≠ [] → s.vbuf.bufPtr ≠ 0) :
    s.recvStep.Placed := by
  have sized := placed.sized p (by rw [place]; rfl)
  have packet : ∀ q, (RecvAt.fits p).packet = some q → sizeofVbHdr ≤ q.data.length := fun q same =>
    placed.sized q (by rw [place]; exact same)
  rw [Video.recvStep, place]
  dsimp only
  split
  next expects =>
    split
    next room =>
      refine placed.moved rfl rfl packet ⟨fun some => ⟨expects.2.2, attached expects room some⟩, fun copying => ?_⟩
      exact (Vbuf.room_iff (placed.inside copying) sized).1 room
    · exact placed.moved rfl rfl (by rintro q ⟨⟩) trivial
  · exact placed.moved rfl rfl (by rintro q ⟨⟩) trivial

theorem Placed.fits (placed : s.Placed) (place : s.recv = .fits p) : s.recvStep.Placed := by
  have steady := placed.steady
  rw [Steady, place] at steady
  have packet : ∀ q, (RecvAt.copied p).packet = some q → sizeofVbHdr ≤ q.data.length := fun q same =>
    placed.sized q (by rw [place]; exact same)
  rw [Video.recvStep, place]
  exact placed.moved rfl rfl packet fun copying => ⟨steady.2 copying, fun some => (steady.1 some).2⟩

/-- The counted packet moves the pointer to the end of the frame. -/
theorem Placed.counts (placed : s.Placed) (place : s.recv = .copied p) (copying : s.vbuf.startBuf = .copy) :
    (s.vbuf.count p).frameLen.toNat ≤ s.vbuf.bufLen.toNat ∧
      ((s.vbuf.count p).bufPtr = 0 ∧ (s.vbuf.count p).frameLen = 0 ∨ s.vbuf.bufBase ≠ 0 ∧
        (s.vbuf.count p).bufPtr.toNat = s.vbuf.bufBase.toNat + (s.vbuf.count p).frameLen.toNat) := by
  have steady := placed.steady
  rw [Steady, place] at steady
  obtain ⟨room, some⟩ := steady copying
  have sized := placed.sized p (by rw [place]; rfl)
  have org := Packet.orgLen_eq sized
  have length := Vbuf.count_frameLen sized room
  have bounded := placed.bounded
  refine ⟨by rw [length]; exact room, ?_⟩
  rcases placed.pointer copying with ⟨detached, zero⟩ | ⟨based, attached⟩
  · have none : p.payload = [] := Classical.not_not.1 fun bytes => some bytes detached
    have nothing : p.orgLen = 0 := UInt32.toNat_inj.mp (by rw [org, none]; rfl)
    refine .inl ⟨?_, ?_⟩
    · rw [Vbuf.count, nothing, detached]
      rfl
    · rw [Vbuf.count, nothing, zero]
      rfl
  · refine .inr ⟨based, ?_⟩
    have moved : (s.vbuf.count p).bufPtr.toNat = s.vbuf.bufPtr.toNat + p.orgLen.toNat := by
      rw [Vbuf.count, UInt32.toNat_add]
      exact Nat.mod_eq_of_lt (by omega)
    rw [moved, length, org, attached]
    omega

theorem Placed.copied (placed : s.Placed) (place : s.recv = .copied p)
    (ends : p.isEof = 1 → s.vbuf.startBuf = .copy ∧ (s.vbuf.count p).Scannable s.memory) : s.recvStep.Placed := by
  have packet : ∀ q, (RecvAt.counted p).packet = some q → sizeofVbHdr ≤ q.data.length := fun q same =>
    placed.sized q (by rw [place]; exact same)
  have counts := @Placed.counts s p placed place
  rw [Video.recvStep, place]
  dsimp only
  split
  next last =>
    refine ⟨packet, placed.present, placed.bounded, placed.taken, fun copying => (counts copying).1,
      fun copying => (counts copying).2, ends last⟩
  next =>
    refine ⟨by rintro q ⟨⟩, placed.present, placed.bounded, placed.taken,
      fun copying => (counts copying).1, fun copying => (counts copying).2, trivial⟩

theorem Placed.recvStep (placed : s.Placed) (careful : Careful s .recv) : s.recvStep.Placed := by
  unfold Careful at careful
  cases place : s.recv with
  | idle =>
    rw [Video.recvStep, place]
    exact placed
  | entered p => exact placed.entered place
  | begun p =>
    rw [place] at careful
    exact placed.begun place careful
  | fits p => exact placed.fits place
  | copied p =>
    rw [place] at careful
    exact placed.copied place careful
  | counted p =>
    rw [Video.recvStep, place]
    exact placed.moved rfl rfl (by rintro q ⟨⟩) trivial
  | judged rightImage =>
    rw [Video.recvStep, place]
    cases rightImage with
    | true => exact placed.stopped (by decide)
    | false => exact placed.stopped (by decide)
  | overflown =>
    rw [Video.recvStep, place]
    exact placed.stopped (by decide)
  | waking =>
    rw [Video.recvStep, place]
    exact ⟨by rintro q ⟨⟩, placed.present, placed.bounded, placed.taken, placed.inside, placed.pointer,
      trivial⟩

/-! ## The calls -/

theorem Placed.setSemaphore (placed : s.Placed) (value : Bool) : (s.setVbuf (Vbuf.setSemaphore value)).Placed where
  sized := placed.sized
  present := placed.present
  bounded := placed.bounded
  taken := placed.taken
  inside := placed.inside
  pointer := placed.pointer
  steady := placed.steady

theorem Placed.setReader {r : Nat} {read : ReadAt} (placed : s.Placed)
    (present : ∀ user, read.asked = some user → user.buf ≠ 0) : (s.setReader r read).Placed := by
  refine { placed with present := ?_, steady := placed.steady }
  intro other user asked
  by_cases same : other = r
  · subst same
    exact present user ((congrArg ReadAt.asked (Function.update_self _ _ _)).symm.trans asked)
  · exact placed.present other user ((congrArg ReadAt.asked (Function.update_of_ne same _ _)).symm.trans asked)

theorem Placed.readFrame {r : Nat} {user : UserBuf} (placed : s.Placed) : (s.readFrame r user).Placed := by
  rw [Video.readFrame]
  split
  · exact { placed with steady := placed.steady }
  next given =>
    split
    · refine placed.setReader fun another asked => ?_
      obtain rfl := Option.some.inj asked
      exact fun null => given (.inl null)
    · exact { placed with steady := placed.steady }

/-- A buffer that nobody had on offer is new to the handler. -/
theorem Placed.offer {r : Nat} {user : UserBuf} (placed : s.Placed) (place : s.reader r = .drained user)
    (null : s.vbuf.bufBase = 0) : (s.offer r user).Placed := by
  have based : user.buf ≠ 0 := placed.present r user (by rw [place]; rfl)
  have detached : s.vbuf.startBuf = .copy → s.vbuf.bufPtr = 0 ∧ s.vbuf.frameLen = 0 := fun copying =>
    (placed.pointer copying).resolve_right fun attached => attached.1 null
  have empty : s.vbuf.startBuf = .copy → s.vbuf.frameLen.toNat = 0 := fun copying =>
    congrArg UInt32.toNat (detached copying).2
  have given : (s.setVbuf (Vbuf.setBuf user)).Placed := by
    refine ⟨placed.sized, placed.present, user.bounded, fun zero => absurd zero based, ?_, ?_, ?_⟩
    · intro copying
      change s.vbuf.frameLen.toNat ≤ _
      rw [empty copying]
      exact Nat.zero_le _
    · exact fun copying => .inl (detached copying)
    · have steady := placed.steady
      unfold Steady at steady ⊢
      change match s.recv with | .fits p => _ | .copied p => _ | .counted _ => _ | _ => _
      cases place : s.recv with
      | fits p =>
        rw [place] at steady
        have none : p.payload = [] := Classical.not_not.1 fun some =>
          (steady.1 some).2 (detached (steady.1 some).1).1
        refine ⟨fun some => absurd none some, fun copying => ?_⟩
        change s.vbuf.frameLen.toNat + _ ≤ _
        rw [empty copying, none]
        exact Nat.zero_le _
      | copied p =>
        rw [place] at steady
        intro copying
        have none : p.payload = [] := Classical.not_not.1 fun some =>
          (steady copying).2 some (detached copying).1
        refine ⟨?_, fun some => absurd none some⟩
        change s.vbuf.frameLen.toNat + _ ≤ _
        rw [empty copying, none]
        exact Nat.zero_le _
      | counted p =>
        rw [place] at steady
        have zero := empty steady.1
        have scannable := steady.2
        unfold Vbuf.Scannable at scannable
        omega
      | idle | entered p | begun p | judged rightImage | overflown | waking => trivial
  refine given.setReader fun another asked => ?_
  rwa [← Option.some.inj asked]

/-- A buffer that is taken back leaves a handler that neither copies nor looks. -/
theorem Placed.finish {r : Nat} {user : UserBuf} {frameLen : UInt32} {err : Int} (placed : s.Placed)
    (copies : ∀ p, s.recv = .fits p → p.payload = []) (looks : ∀ p, s.recv ≠ .counted p) :
    (s.finish r user frameLen err).Placed := by
  have cleared : (s.setVbuf Vbuf.clearBuf).Placed := by
    refine ⟨placed.sized, placed.present, Nat.two_pow_pos 32, fun _ => rfl, ?_, ?_, ?_⟩
    · exact fun copying => BufSta.noConfusion copying
    · exact fun copying => BufSta.noConfusion copying
    · unfold Steady
      change match s.recv with | .fits p => _ | .copied p => _ | .counted _ => _ | _ => _
      cases place : s.recv with
      | fits p => exact ⟨fun some => absurd (copies p place) some, fun copying => BufSta.noConfusion copying⟩
      | copied p => exact fun copying => BufSta.noConfusion copying
      | counted p => exact absurd place (looks p)
      | idle | entered p | begun p | judged rightImage | overflown | waking => trivial
  have closed : ((s.setVbuf Vbuf.clearBuf).setReader r .idle).Placed :=
    cleared.setReader fun another asked => nomatch asked
  exact { closed with steady := closed.steady }

theorem Placed.readStep {r : Nat} {timeout : Bool} (placed : s.Placed) (one : OneOffer s (.read r timeout))
    (careful : Careful s (.read r timeout)) (taken : readStep r timeout s = some t) : t.Placed := by
  rw [OneOffer] at one
  rw [Careful] at careful
  rw [VideoBuffer.readStep] at taken
  cases place : s.reader r with
  | idle =>
    rw [place] at taken
    cases taken
  | draining user =>
    rw [place] at taken
    rw [← Option.some.inj taken, Video.drain]
    split
    · exact placed.setSemaphore false
    · exact placed.setReader fun another asked => placed.present r another (by rw [place]; exact asked)
  | drained user =>
    rw [place] at taken one
    rw [← Option.some.inj taken]
    exact placed.offer place one
  | waiting user =>
    have kept : ∀ another, some user = some another → another.buf ≠ 0 := fun another asked =>
      placed.present r another (by rw [place]; exact asked)
    rw [place] at taken
    dsimp only at taken
    split at taken
    · rw [← Option.some.inj taken]
      exact (placed.setSemaphore false).setReader kept
    · split at taken
      · rw [← Option.some.inj taken]
        exact placed.setReader kept
      · cases taken
  | woken user =>
    have kept : ∀ another, some user = some another → another.buf ≠ 0 := fun another asked =>
      placed.present r another (by rw [place]; exact asked)
    rw [place] at taken
    rw [← Option.some.inj taken, Video.classify]
    split <;> exact placed.setReader kept
  | outcome user frameLen err =>
    rw [place] at taken careful
    rw [← Option.some.inj taken]
    refine placed.finish (fun p at' => ?_) (fun p at' => ?_)
    · rw [at'] at careful
      exact careful
    · rw [at'] at careful
      exact careful

/-- What others store is outside of what is scanned of a frame. -/
theorem Placed.store {addr : Nat} {value : UInt8} (placed : s.Placed) (outside : ¬ s.vbuf.Offered addr) :
    (s.store addr [value]).Placed := by
  refine ⟨placed.sized, placed.present, placed.bounded, placed.taken, placed.inside, placed.pointer, ?_⟩
  have steady := placed.steady
  unfold Steady at steady ⊢
  change match s.recv with | .fits p => _ | .copied p => _ | .counted _ => _ | _ => _
  cases place : s.recv with
  | fits p | copied p =>
    rw [place] at steady
    exact steady
  | counted p =>
    rw [place] at steady
    obtain ⟨copying, scannable⟩ := steady
    have inside := placed.inside copying
    have same : ∀ a, s.vbuf.Offered a → storeBytes s.memory addr [value] a = s.memory a := by
      intro a offered
      apply storeBytes_outside
      unfold Vbuf.Offered at offered outside
      rw [List.length_singleton]
      omega
    refine ⟨copying, ?_⟩
    change s.vbuf.Scannable (storeBytes s.memory addr [value])
    unfold Vbuf.Scannable at scannable ⊢
    unfold Vbuf.Offered at same
    rcases scannable with long | ⟨two, other⟩ | ⟨one, other⟩
    · exact .inl long
    · refine .inr (.inl ⟨two, ?_⟩)
      rwa [same _ (by omega), same _ (by omega)]
    · refine .inr (.inr ⟨one, ?_⟩)
      rwa [same _ (by omega)]
  | idle | entered p | begun p | judged rightImage | overflown | waking => trivial

theorem Placed.step {event : Event} (placed : s.Placed) (one : OneOffer s event) (careful : Careful s event)
    (taken : step event s = some t) : t.Placed := by
  cases event with
  | push p =>
    obtain ⟨rest, same⟩ := Option.ite_none_right_eq_some.mp taken
    rw [← Option.some.inj same]
    exact placed.push rest
  | recv =>
    obtain ⟨_, same⟩ := Option.ite_none_left_eq_some.mp taken
    rw [← Option.some.inj same]
    exact placed.recvStep careful
  | readFrame r user =>
    obtain ⟨_, same⟩ := Option.ite_none_right_eq_some.mp taken
    rw [← Option.some.inj same]
    exact placed.readFrame
  | read r timeout => exact placed.readStep one careful taken
  | store addr value =>
    obtain ⟨outside, same⟩ := Option.ite_none_left_eq_some.mp taken
    rw [← Option.some.inj same]
    exact placed.store outside

/-! ## Careless steps -/

/-- A packet with bytes is about to be copied to where no buffer is. -/
theorem spoiled_of_written (place : s.recv = .fits p) (some : p.payload ≠ [])
    (outside : ¬ s.vbuf.Offered s.vbuf.bufPtr.toNat) : ¬ s.InBounds := by
  intro good
  refine outside (good.writes _ ?_)
  rw [written, place]
  have positive := List.length_pos_of_ne_nil some
  exact List.mem_range'_1.mpr ⟨Nat.le_refl _, by omega⟩

theorem spoiled_of_stopped (place : s.recv = .counted p) (stopped : s.vbuf.startBuf ≠ .copy) : ¬ s.InBounds := by
  intro good
  refine stopped (good.reads s.vbuf.bufBase.toNat ?_).1
  rw [scanned, place]
  exact List.mem_cons_self

/-- Without a buffer nothing is on offer. -/
theorem Placed.bare (placed : s.Placed) : ¬ s.vbuf.Offered 0 := by
  intro offered
  obtain ⟨low, high⟩ := offered
  have null : s.vbuf.bufBase = 0 := UInt32.toNat_inj.mp (Nat.le_zero.mp low)
  rw [placed.taken null, null] at high
  exact absurd high (by decide)

theorem Placed.spoiled_recv (placed : s.Placed) (careless : ¬ Careful s .recv) : ¬ s.recvStep.InBounds := by
  unfold Careful at careless
  cases place : s.recv with
  | begun p =>
    rw [place] at careless
    simp only [Classical.not_imp, Classical.not_not] at careless
    obtain ⟨expects, room, some, null⟩ := careless
    have stepped : s.recvStep = s.setRecv (.fits p) := by
      rw [Video.recvStep, place]
      exact (if_pos expects).trans (if_pos room)
    rw [stepped]
    refine spoiled_of_written rfl some ?_
    change ¬ s.vbuf.Offered s.vbuf.bufPtr.toNat
    rw [null]
    exact placed.bare
  | copied p =>
    rw [place] at careless
    simp only [Classical.not_imp] at careless
    obtain ⟨last, careless⟩ := careless
    have stepped : s.recvStep = (s.setVbuf (Vbuf.count p)).setRecv (.counted p) := by
      rw [Video.recvStep, place]
      dsimp only
      rw [if_pos last]
    rw [stepped]
    by_cases copying : s.vbuf.startBuf = .copy
    · intro good
      refine careless ⟨copying, (Vbuf.scanned_iff (g := s.vbuf.count p) ?_ copying).1 good.reads⟩
      have inside := (placed.counts place copying).1
      have bounded := placed.bounded
      change s.vbuf.bufBase.toNat + _ < _
      omega
    · exact spoiled_of_stopped rfl copying
  | idle | entered p | fits p | counted p | judged rightImage | overflown | waking =>
    rw [place] at careless
    exact absurd trivial careless

theorem spoiled_finish {r : Nat} {timeout : Bool} (careless : ¬ Careful s (.read r timeout))
    (taken : VideoBuffer.readStep r timeout s = some t) : ¬ t.InBounds := by
  rw [Careful] at careless
  rw [VideoBuffer.readStep] at taken
  cases place : s.reader r with
  | outcome user frameLen err =>
    rw [place] at taken careless
    rw [← Option.some.inj taken]
    cases position : s.recv with
    | fits p =>
      rw [position] at careless
      refine @spoiled_of_written (s.finish r user frameLen err) p position careless ?_
      exact fun offered => absurd offered.2 (Nat.not_lt_zero _)
    | counted p =>
      refine @spoiled_of_stopped (s.finish r user frameLen err) p position ?_
      exact BufSta.noConfusion
    | idle | entered p | begun p | copied p | judged rightImage | overflown | waking =>
      rw [position] at careless
      exact absurd trivial careless
  | idle | draining user | drained user | waiting user | woken user =>
    rw [place] at careless
    exact absurd trivial careless

theorem Placed.spoiled {event : Event} (placed : s.Placed) (careless : ¬ Careful s event)
    (taken : VideoBuffer.step event s = some t) : ¬ t.InBounds := by
  cases event with
  | recv =>
    obtain ⟨_, same⟩ := Option.ite_none_left_eq_some.mp taken
    rw [← Option.some.inj same]
    exact placed.spoiled_recv careless
  | read r timeout => exact spoiled_finish careless taken
  | push p | readFrame r user | store addr value => exact absurd trivial careless

end Video

/-- A frame of the two bytes that begin an image. -/
def shortFrame : Packet := ⟨[1, 1, 1, 1, 0xff, 0xd8], by decide⟩

/-- Time runs out between the test of `left_len` and the copy. -/
theorem late_copy : ∃ moments final, Run (Machine.Step step) (Video.opened fun _ => 0) moments final ∧
    moments.map Moment.event = [.read 0 false, .read 0 true] ++ List.replicate 2 .recv ++ [.push onePacketFrame] ++
      startRead 0 firstBuf ∧
    firstBuf.buf.toNat ∈ final.written ∧ final.reader 0 = .idle ∧ ¬ final.InBounds := by
  have copies : (Machine.replay step (Video.opened fun _ => 0)
      ([.read 0 false, .read 0 true] ++ List.replicate 2 .recv ++ [.push onePacketFrame] ++ startRead 0 firstBuf)).any
      (fun s => decide (firstBuf.buf.toNat ∈ s.written ∧ s.reader 0 = .idle ∧ s.vbuf.bufLen = 0 ∧
        s.vbuf.bufBase = 0)) = true := by
    decide
  obtain ⟨moments, final, run, events, shown⟩ := Machine.run_of_any copies
  obtain ⟨member, idle, none, null⟩ := of_decide_eq_true shown
  refine ⟨moments, final, run, events, member, idle, fun good => ?_⟩
  have offered := (good.writes _ member).2
  rw [none, null] at offered
  exact absurd offered (by decide)

end BekenSdk.VideoBuffer
