import BekenSdk.VideoBuffer.Buffer

/-! What a successful call of `video_buffer_read_frame` returns is a frame, unless
a buffer changes hands at the wrong moment: while another one is on offer, or
while the receive call is about to begin or to end a frame in the old one.
-/

set_option autoImplicit false

namespace BekenSdk.VideoBuffer
open Base

/-- Success means a frame whose packets were pushed in order. -/
def Report.Intact (pushed : List Packet) (report : Report) : Prop :=
  report.errCode = 0 → ∃ packets : List Packet, packets.Sublist pushed ∧ Frame packets ∧ report.bytes = content packets

def Intact (s : Video) : Prop := ∀ report ∈ s.reports, report.Intact s.pushed

namespace ReadAt

def asked : ReadAt → Option UserBuf
  | idle => none
  | draining user | drained user | waiting user | woken user | outcome user _ _ => some user

/-- The buffer that the call has put into `buf_base`. -/
def offered : ReadAt → Option UserBuf
  | waiting user | woken user | outcome user _ _ => some user
  | _ => none

theorem asked_of_offered {read : ReadAt} {user : UserBuf} (offers : read.offered = some user) :
    read.asked = some user := by
  cases read <;> first | exact offers | cases offers

end ReadAt

def RecvAt.packet : RecvAt → Option Packet
  | entered p | begun p | fits p | copied p | counted p => some p
  | _ => none

namespace Video

/-- The receive call is past its tests and on the way to begin a frame, or to end one. -/
def Committed (s : Video) : Prop :=
  match s.recv with
  | .entered p => s.vbuf.Starts p
  | .fits p | .copied p => p.isEof = 1
  | .counted _ => True
  | .judged rightImage => rightImage = true
  | _ => False

instance (s : Video) : Decidable s.Committed := by
  unfold Committed
  split <;> infer_instance

/-- If a frame is under way, its packets are among the past ones. -/
def PartOf (past : List Packet) (s : Video) : Prop :=
  s.vbuf.startBuf = .copy → ∃ (id : UInt8) (packets : List Packet), packets.Sublist past ∧ Part id packets ∧
    id.toUInt32 = s.vbuf.frameId ∧ s.vbuf.Collects s.memory packets

def Whole (s : Video) : Prop :=
  ∃ packets : List Packet, packets.Sublist s.pushed ∧ Frame packets ∧ s.vbuf.Collects s.memory packets

/-- What is known at each place of the receive call. -/
def Receiving (s : Video) : Prop :=
  match s.recv with
  | .idle | .waking => s.PartOf s.pushed
  | .entered p => (s.vbuf.Starts p → s.vbuf.bufBase ≠ 0) ∧ ∃ past, s.pushed = past ++ [p] ∧ s.PartOf past
  | .begun p => ∃ past, s.pushed = past ++ [p] ∧ s.PartOf past
  | .fits p => (p.isEof = 1 → s.vbuf.startBuf = .copy) ∧ (s.vbuf.startBuf = .copy →
      ∃ packets, (packets ++ [p]).Sublist s.pushed ∧ Part p.id packets ∧ p.id.toUInt32 = s.vbuf.frameId ∧
        p.pktSeq.toNat = packets.length + 1 ∧ s.vbuf.Collects s.memory packets ∧
          (content (packets ++ [p])).length ≤ s.vbuf.bufLen.toNat)
  | .copied p => (p.isEof = 1 → s.vbuf.startBuf = .copy) ∧ (s.vbuf.startBuf = .copy →
      ∃ packets, (packets ++ [p]).Sublist s.pushed ∧ Part p.id packets ∧ p.id.toUInt32 = s.vbuf.frameId ∧
        p.pktSeq.toNat = packets.length + 1 ∧ (s.vbuf.count p).Collects s.memory (packets ++ [p]))
  | .counted _ => s.vbuf.startBuf = .copy ∧ s.Whole
  | .judged true => s.vbuf.startBuf = .copy ∧ s.Whole
  | .judged false | .overflown => True

/-- The invariant of runs in which buffers change hands properly. -/
structure Sound (s : Video) : Prop where
  sized : ∀ p, s.recv.packet = some p → sizeofVbHdr ≤ p.data.length
  present : ∀ r user, (s.reader r).asked = some user → user.buf ≠ 0
  owner : ∀ r user, (s.reader r).offered = some user → s.vbuf.bufBase = user.buf ∧ s.vbuf.bufLen = user.bufLen
  alone : ∀ r other user another, (s.reader r).offered = some user → (s.reader other).offered = some another →
    other = r
  bounded : s.vbuf.bufBase.toNat + s.vbuf.bufLen.toNat < 2 ^ 32
  quiet : s.vbuf.bufBase = 0 → s.vbuf.startBuf ≠ .copy ∧ s.vbuf.startBuf ≠ .get
  receiving : s.Receiving
  got : s.vbuf.startBuf = .get → s.Whole ∧ (s.recv = .idle ∨ s.recv = .waking)
  success : ∀ r user frameLen, s.reader r = .outcome user frameLen 0 →
    s.vbuf.startBuf = .get ∧ frameLen = s.vbuf.frameLen

end Video

/-- A buffer goes on offer when no other one is, and it is taken back at a moment
when the receive call is not committed to it. -/
def ChangesHands (s : Video) (event : Event) : Prop :=
  match event with
  | .read r _ =>
    match s.reader r with
    | .drained _ => s.vbuf.bufBase = 0
    | .outcome _ _ _ => ¬s.Committed
    | _ => True
  | _ => True

instance (s : Video) (event : Event) : Decidable (ChangesHands s event) := by
  unfold ChangesHands
  split
  · split <;> infer_instance
  · infer_instance

/-! ## The receive call -/

namespace Video
variable {s : Video} {p : Packet} {past : List Packet}

theorem PartOf.mono {more : List Packet} (part : s.PartOf past) (longer : past.Sublist more) : s.PartOf more := by
  intro copying
  obtain ⟨id, packets, among, rest⟩ := part copying
  exact ⟨id, packets, among.trans longer, rest⟩

theorem partOf_of_idle (receiving : s.Receiving) (rest : s.recv = .idle) : s.PartOf s.pushed := by
  rwa [Receiving, rest] at receiving

theorem Whole.push {more : List Packet} (whole : s.Whole) : ({ s with pushed := s.pushed ++ more } : Video).Whole := by
  obtain ⟨packets, among, frame, collects⟩ := whole
  exact ⟨packets, among.trans (List.sublist_append_left _ _), frame, collects⟩

theorem Sound.push (sound : s.Sound) (rest : s.recv = .idle) : (s.push p).Sound := by
  have part := partOf_of_idle sound.receiving rest
  have later : s.PartOf (s.pushed ++ [p]) := part.mono (List.sublist_append_left _ _)
  have kept : ({ s with pushed := s.pushed ++ [p] } : Video).Sound := by
    refine { sound with receiving := ?_, got := fun get => ⟨(sound.got get).1.push, Or.inl rest⟩ }
    rw [Receiving]
    dsimp only
    rw [rest]
    exact later
  unfold Video.push
  dsimp only
  split
  next accepts =>
    split
    · exact kept
    next sized =>
      refine { kept with sized := ?_, receiving := ?_, got := ?_ }
      · intro q same
        cases same
        exact Nat.le_of_not_lt sized
      · exact ⟨fun _ => accepts.1, s.pushed, rfl, part⟩
      · intro get
        exact accepts.2.elim (fun copy => BufSta.noConfusion (copy.symm.trans get))
          (fun init => BufSta.noConfusion (init.symm.trans get))
  · exact kept

theorem partOf_setSemaphore {value : Bool} : (s.setVbuf (Vbuf.setSemaphore value)).PartOf past ↔ s.PartOf past := by
  simp only [PartOf, setVbuf, Vbuf.setSemaphore_collects]
  exact Iff.rfl

theorem whole_setSemaphore {value : Bool} : (s.setVbuf (Vbuf.setSemaphore value)).Whole ↔ s.Whole := by
  simp only [Whole, setVbuf, Vbuf.setSemaphore_collects]

theorem receiving_setSemaphore {value : Bool} : (s.setVbuf (Vbuf.setSemaphore value)).Receiving ↔ s.Receiving := by
  have recv : (s.setVbuf (Vbuf.setSemaphore value)).recv = s.recv := rfl
  cases place : s.recv with
  | idle | waking => simp only [Receiving, recv, place, partOf_setSemaphore]; exact Iff.rfl
  | entered p | begun p => simp only [Receiving, recv, place, partOf_setSemaphore]; exact Iff.rfl
  | fits p => simp only [Receiving, place, setVbuf, Vbuf.setSemaphore_collects]; exact Iff.rfl
  | copied p =>
    have count : ((s.vbuf.setSemaphore value).count p) = (s.vbuf.count p).setSemaphore value := rfl
    simp only [Receiving, place, setVbuf, count, Vbuf.setSemaphore_collects]
    exact Iff.rfl
  | counted p => simp only [Receiving, recv, place, whole_setSemaphore]; exact Iff.rfl
  | judged rightImage =>
    cases rightImage with
    | true => simp only [Receiving, recv, place, whole_setSemaphore]; exact Iff.rfl
    | false => simp only [Receiving, recv, place]
  | overflown => simp only [Receiving, recv, place]

theorem Sound.setSemaphore (sound : s.Sound) (value : Bool) : (s.setVbuf (Vbuf.setSemaphore value)).Sound where
  sized := sound.sized
  present := sound.present
  owner := sound.owner
  alone := sound.alone
  bounded := sound.bounded
  quiet := sound.quiet
  receiving := receiving_setSemaphore.mpr sound.receiving
  got get := ⟨whole_setSemaphore.mpr (sound.got get).1, (sound.got get).2⟩
  success := sound.success

theorem Sound.store {addr : Nat} {value : UInt8} (sound : s.Sound)
    (outside : ¬(s.vbuf.bufBase.toNat ≤ addr ∧ addr < s.vbuf.bufBase.toNat + s.vbuf.bufLen.toNat)) :
    (s.store addr [value]).Sound := by
  have collects : ∀ {packets}, s.vbuf.Collects s.memory packets →
      s.vbuf.Collects (storeBytes s.memory addr [value]) packets := fun c => c.store outside
  have counted : ∀ {packets} {p : Packet}, (s.vbuf.count p).Collects s.memory packets →
      (s.vbuf.count p).Collects (storeBytes s.memory addr [value]) packets := fun c => c.store outside
  have whole : s.Whole → (s.store addr [value]).Whole := fun ⟨packets, among, frame, c⟩ =>
    ⟨packets, among, frame, collects c⟩
  have part : ∀ {past}, s.PartOf past → (s.store addr [value]).PartOf past := by
    intro past part copying
    obtain ⟨id, packets, among, kept, frameId, c⟩ := part copying
    exact ⟨id, packets, among, kept, frameId, collects c⟩
  refine { sound with receiving := ?_, got := fun get => ⟨whole (sound.got get).1, (sound.got get).2⟩ }
  have receiving := sound.receiving
  rw [Receiving] at receiving ⊢
  dsimp only [Video.store]
  split <;> rename_i place <;> rw [place] at receiving
  · exact part receiving
  · exact part receiving
  · exact ⟨receiving.1, receiving.2.imp fun past known => ⟨known.1, part known.2⟩⟩
  · exact receiving.imp fun past known => ⟨known.1, part known.2⟩
  · refine ⟨receiving.1, fun copying => ?_⟩
    obtain ⟨packets, among, kept, frameId, number, c, room⟩ := receiving.2 copying
    exact ⟨packets, among, kept, frameId, number, collects c, room⟩
  · refine ⟨receiving.1, fun copying => ?_⟩
    obtain ⟨packets, among, kept, frameId, number, c⟩ := receiving.2 copying
    exact ⟨packets, among, kept, frameId, number, counted c⟩
  · exact ⟨receiving.1, whole receiving.2⟩
  · exact ⟨receiving.1, whole receiving.2⟩
  · trivial
  · trivial

/-- A step of the receive call that is neither its first nor its last one. -/
theorem Sound.working {t : Video} (sound : s.Sound) (busy : s.vbuf.startBuf ≠ .get) (readers : t.reader = s.reader)
    (base : t.vbuf.bufBase = s.vbuf.bufBase) (len : t.vbuf.bufLen = s.vbuf.bufLen)
    (sized : ∀ p, t.recv.packet = some p → s.recv.packet = some p)
    (quiet : s.vbuf.bufBase = 0 → t.vbuf.startBuf ≠ .copy ∧ t.vbuf.startBuf ≠ .get) (receiving : t.Receiving)
    (got : t.vbuf.startBuf = .get → t.Whole ∧ t.recv = .waking) : t.Sound where
  sized p same := sound.sized p (sized p same)
  present := by rw [readers]; exact sound.present
  owner := by rw [readers, base, len]; exact sound.owner
  alone := by rw [readers]; exact sound.alone
  bounded := by rw [base, len]; exact sound.bounded
  quiet := by rw [base]; exact quiet
  receiving := receiving
  got get := ⟨(got get).1, Or.inr (got get).2⟩
  success r user frameLen same := by
    rw [readers] at same
    exact absurd (sound.success r user frameLen same).1 busy

theorem Sound.busy (sound : s.Sound) (idle : s.recv ≠ .idle) (waking : s.recv ≠ .waking) : s.vbuf.startBuf ≠ .get :=
  fun get => (sound.got get).2.elim idle waking

theorem Sound.entered (sound : s.Sound) (place : s.recv = .entered p) : s.recvStep.Sound := by
  have busy := sound.busy (by rw [place]; exact RecvAt.noConfusion) (by rw [place]; exact RecvAt.noConfusion)
  have receiving := sound.receiving
  rw [Receiving, place] at receiving
  obtain ⟨based, past, pushed, part⟩ := receiving
  have same : s.recv.packet = some p := by rw [place]; rfl
  rw [recvStep, place]
  dsimp only
  split
  next starts =>
    refine sound.working busy rfl rfl rfl ?_ ?_ ?_ ?_
    · intro q now
      exact same.trans now
    · exact fun null => absurd null (based starts)
    · refine ⟨past, pushed, fun _ => ⟨p.id, [], List.nil_sublist _, Part.nil, rfl, ?_⟩⟩
      exact Vbuf.startOfFrame_collects (based starts) sound.bounded
    · exact fun get => BufSta.noConfusion get
  next =>
    refine sound.working busy rfl rfl rfl ?_ ?_ ?_ ?_
    · intro q now
      exact same.trans now
    · exact sound.quiet
    · exact ⟨past, pushed, part⟩
    · exact fun get => absurd get busy

theorem Sound.begun (sound : s.Sound) (place : s.recv = .begun p) : s.recvStep.Sound := by
  have busy := sound.busy (by rw [place]; exact RecvAt.noConfusion) (by rw [place]; exact RecvAt.noConfusion)
  have receiving := sound.receiving
  rw [Receiving, place] at receiving
  obtain ⟨past, pushed, part⟩ := receiving
  have same : s.recv.packet = some p := by rw [place]; rfl
  have sized := sound.sized p same
  rw [recvStep, place]
  dsimp only
  split
  next expects =>
    obtain ⟨mine, number, copying⟩ := expects
    obtain ⟨id, packets, among, kept, frameId, collects⟩ := part copying
    split
    next room =>
      refine sound.working busy rfl rfl rfl ?_ ?_ ?_ ?_
      · intro q now
        exact same.trans now
      · exact sound.quiet
      · refine ⟨fun _ => copying, fun _ => ⟨packets, ?_, ?_, mine, ?_, collects, ?_⟩⟩
        · change (packets ++ [p]).Sublist s.pushed
          rw [pushed]
          exact among.append (List.Sublist.refl _)
        · have alike : p.id = id := UInt8.toUInt32_inj.mp (mine.trans frameId.symm)
          rw [alike]
          exact kept
        · exact collects.number kept.toNumbered number
        · exact (collects.room sized).mp room
      · exact fun get => absurd get busy
    · refine sound.working busy rfl rfl rfl ?_ ?_ ?_ ?_
      · exact fun q now => nomatch now
      · exact sound.quiet
      · trivial
      · exact fun get => absurd get busy
  next =>
    refine sound.working busy rfl rfl rfl ?_ ?_ ?_ ?_
    · exact fun q now => nomatch now
    · exact sound.quiet
    · change PartOf s.pushed s
      rw [pushed]
      exact part.mono (List.sublist_append_left _ _)
    · exact fun get => absurd get busy

theorem Sound.fits (sound : s.Sound) (place : s.recv = .fits p) : s.recvStep.Sound := by
  have busy := sound.busy (by rw [place]; exact RecvAt.noConfusion) (by rw [place]; exact RecvAt.noConfusion)
  have receiving := sound.receiving
  rw [Receiving, place] at receiving
  obtain ⟨ended, part⟩ := receiving
  have same : s.recv.packet = some p := by rw [place]; rfl
  rw [recvStep, place]
  refine sound.working busy rfl rfl rfl ?_ ?_ ?_ ?_
  · intro q now
    exact same.trans now
  · exact sound.quiet
  · refine ⟨ended, fun copying => ?_⟩
    obtain ⟨packets, among, kept, frameId, number, collects, room⟩ := part copying
    have few := kept.toNumbered.length_lt
    exact ⟨packets, among, kept, frameId, number, collects.snoc (sound.sized p same) (by omega) room⟩
  · exact fun get => absurd get busy

theorem Sound.copied (sound : s.Sound) (place : s.recv = .copied p) : s.recvStep.Sound := by
  have busy := sound.busy (by rw [place]; exact RecvAt.noConfusion) (by rw [place]; exact RecvAt.noConfusion)
  have receiving := sound.receiving
  rw [Receiving, place] at receiving
  obtain ⟨ended, part⟩ := receiving
  have same : s.recv.packet = some p := by rw [place]; rfl
  rw [recvStep, place]
  dsimp only
  split
  next last =>
    refine sound.working busy rfl rfl rfl ?_ ?_ ?_ ?_
    · intro q now
      exact same.trans now
    · exact sound.quiet
    · obtain ⟨packets, among, kept, frameId, number, collects⟩ := part (ended last)
      exact ⟨ended last, packets ++ [p], among, kept.ends rfl number last, collects⟩
    · exact fun get => absurd get busy
  next more =>
    refine sound.working busy rfl rfl rfl ?_ ?_ ?_ ?_
    · exact fun q now => nomatch now
    · exact sound.quiet
    · intro copying
      obtain ⟨packets, among, kept, frameId, number, collects⟩ := part copying
      exact ⟨p.id, packets ++ [p], among, kept.snoc rfl number more, frameId, collects⟩
    · exact fun get => absurd get busy

theorem Sound.counted (sound : s.Sound) (place : s.recv = .counted p) : s.recvStep.Sound := by
  have busy := sound.busy (by rw [place]; exact RecvAt.noConfusion) (by rw [place]; exact RecvAt.noConfusion)
  have receiving := sound.receiving
  rw [Receiving, place] at receiving
  rw [recvStep, place]
  refine sound.working busy rfl rfl rfl ?_ ?_ ?_ ?_
  · exact fun q now => nomatch now
  · exact sound.quiet
  · cases judged : s.vbuf.rightImage s.memory with
    | true =>
      rw [Receiving, setRecv]
      exact receiving
    | false =>
      rw [Receiving, setRecv]
      trivial
  · exact fun get => absurd get busy

theorem Sound.judged {rightImage : Bool} (sound : s.Sound) (place : s.recv = .judged rightImage) :
    s.recvStep.Sound := by
  have busy := sound.busy (by rw [place]; exact RecvAt.noConfusion) (by rw [place]; exact RecvAt.noConfusion)
  have receiving := sound.receiving
  rw [Receiving, place] at receiving
  rw [recvStep, place]
  cases rightImage with
  | true =>
    obtain ⟨_, packets, among, frame, collects⟩ := receiving
    refine sound.working busy rfl rfl rfl ?_ ?_ ?_ ?_
    · exact fun q now => nomatch now
    · exact fun null => absurd null collects.based
    · exact fun copying => BufSta.noConfusion copying
    · exact fun _ => ⟨⟨packets, among, frame, Vbuf.setStartBuf_collects.mpr collects⟩, rfl⟩
  | false =>
    refine sound.working busy rfl rfl rfl ?_ ?_ ?_ ?_
    · exact fun q now => nomatch now
    · exact fun _ => ⟨BufSta.noConfusion, BufSta.noConfusion⟩
    · exact fun copying => BufSta.noConfusion copying
    · exact fun get => BufSta.noConfusion get

theorem Sound.overflown (sound : s.Sound) (place : s.recv = .overflown) : s.recvStep.Sound := by
  have busy := sound.busy (by rw [place]; exact RecvAt.noConfusion) (by rw [place]; exact RecvAt.noConfusion)
  rw [recvStep, place]
  refine sound.working busy rfl rfl rfl ?_ ?_ ?_ ?_
  · exact fun q now => nomatch now
  · exact fun _ => ⟨BufSta.noConfusion, BufSta.noConfusion⟩
  · exact fun copying => BufSta.noConfusion copying
  · exact fun get => BufSta.noConfusion get

theorem Sound.waking (sound : s.Sound) (place : s.recv = .waking) : s.recvStep.Sound := by
  have signalled := sound.setSemaphore true
  have receiving := sound.receiving
  rw [Receiving, place] at receiving
  rw [recvStep, place]
  refine { signalled with sized := fun q now => (nomatch now), receiving := ?_, got := ?_ }
  · exact partOf_setSemaphore.mpr receiving
  · exact fun get => ⟨(signalled.got get).1, Or.inl rfl⟩

theorem Sound.recvStep (sound : s.Sound) : s.recvStep.Sound := by
  cases place : s.recv with
  | idle =>
    rw [Video.recvStep, place]
    exact sound
  | entered p => exact sound.entered place
  | begun p => exact sound.begun place
  | fits p => exact sound.fits place
  | copied p => exact sound.copied place
  | counted p => exact sound.counted place
  | judged rightImage => exact sound.judged place
  | overflown => exact sound.overflown place
  | waking => exact sound.waking place

/-! ## The calls of video_buffer_read_frame -/

theorem Sound.setReader {r : Nat} {read : ReadAt} (sound : s.Sound)
    (present : ∀ user, read.asked = some user → user.buf ≠ 0)
    (owner : ∀ user, read.offered = some user → s.vbuf.bufBase = user.buf ∧ s.vbuf.bufLen = user.bufLen ∧
      ∀ other another, (s.reader other).offered = some another → other = r)
    (success : ∀ user frameLen, read = .outcome user frameLen 0 →
      s.vbuf.startBuf = .get ∧ frameLen = s.vbuf.frameLen) : (s.setReader r read).Sound := by
  have here : (s.setReader r read).reader r = read := Function.update_self _ _ _
  have there : ∀ other, other ≠ r → (s.setReader r read).reader other = s.reader other := fun other apart =>
    Function.update_of_ne apart _ _
  constructor
  · exact sound.sized
  · intro other user asked
    by_cases same : other = r
    · rw [same, here] at asked
      exact present user asked
    · rw [there other same] at asked
      exact sound.present other user asked
  · intro other user offered
    by_cases same : other = r
    · rw [same, here] at offered
      exact ⟨(owner user offered).1, (owner user offered).2.1⟩
    · rw [there other same] at offered
      exact sound.owner other user offered
  · intro one other user another first second
    by_cases same : one = r
    · by_cases also : other = r
      · rw [same, also]
      · rw [same, here] at first
        rw [there other also] at second
        rw [same]
        exact (owner user first).2.2 other another second
    · rw [there one same] at first
      by_cases also : other = r
      · rw [also, here] at second
        exact absurd ((owner another second).2.2 one user first) same
      · rw [there other also] at second
        exact sound.alone one other user another first second
  · exact sound.bounded
  · exact sound.quiet
  · exact sound.receiving
  · exact sound.got
  · intro other user frameLen outcome
    by_cases same : other = r
    · rw [same, here] at outcome
      exact success user frameLen outcome
    · rw [there other same] at outcome
      exact sound.success other user frameLen outcome

/-- A call goes on with the buffer that it has on offer. -/
theorem Sound.proceed {r : Nat} {user : UserBuf} {read : ReadAt} (sound : s.Sound)
    (before : (s.reader r).offered = some user) (asked : read.asked = some user)
    (success : ∀ another frameLen, read = .outcome another frameLen 0 →
      s.vbuf.startBuf = .get ∧ frameLen = s.vbuf.frameLen) : (s.setReader r read).Sound := by
  have same : ∀ another, read.asked = some another → user = another := fun another now =>
    Option.some.inj (asked.symm.trans now)
  refine sound.setReader ?_ ?_ success
  · intro another now
    rw [← same another now]
    exact sound.present r user (ReadAt.asked_of_offered before)
  · intro another now
    rw [← same another (ReadAt.asked_of_offered now)]
    obtain ⟨base, len⟩ := sound.owner r user before
    exact ⟨base, len, fun other third offered => sound.alone r other user third before offered⟩

theorem Sound.readFrame {r : Nat} {user : UserBuf} (sound : s.Sound) : (s.readFrame r user).Sound := by
  rw [Video.readFrame]
  split
  · exact { sound with }
  next given =>
    split
    · refine sound.setReader ?_ (fun another offered => (nomatch offered)) (fun another frameLen now => (nomatch now))
      intro another asked
      rw [← Option.some.inj asked]
      exact fun null => given (Or.inl null)
    · exact { sound with }

theorem Sound.drain {r : Nat} {user : UserBuf} (sound : s.Sound) (place : s.reader r = .draining user) :
    (s.drain r user).Sound := by
  rw [Video.drain]
  split
  · exact sound.setSemaphore false
  · refine sound.setReader ?_ (fun another offered => (nomatch offered)) (fun another frameLen now => (nomatch now))
    intro another asked
    exact sound.present r another (by rw [place]; exact asked)

/-- Without a buffer no frame is under way. -/
theorem Sound.receiving_of_null {g : Vbuf} (sound : s.Sound) (null : s.vbuf.bufBase = 0) (based : g.bufBase ≠ 0)
    (same : g.startBuf = s.vbuf.startBuf) : ({ s with vbuf := g } : Video).Receiving := by
  have quiet := (sound.quiet null).1
  have receiving := sound.receiving
  have part : ∀ past, ({ s with vbuf := g } : Video).PartOf past := fun past copying =>
    absurd (same.symm.trans copying) quiet
  rw [Receiving] at receiving ⊢
  dsimp only
  split <;> rename_i place <;> rw [place] at receiving
  · exact part _
  · exact part _
  · exact ⟨fun _ => based, receiving.2.imp fun past known => ⟨known.1, part past⟩⟩
  · exact receiving.imp fun past known => ⟨known.1, part past⟩
  · exact ⟨fun last => absurd (receiving.1 last) quiet, fun copying => absurd (same.symm.trans copying) quiet⟩
  · exact ⟨fun last => absurd (receiving.1 last) quiet, fun copying => absurd (same.symm.trans copying) quiet⟩
  · exact absurd receiving.1 quiet
  · exact absurd receiving.1 quiet
  · trivial
  · trivial

theorem Sound.offer {r : Nat} {user : UserBuf} (sound : s.Sound) (place : s.reader r = .drained user)
    (null : s.vbuf.bufBase = 0) : (s.offer r user).Sound := by
  have based : user.buf ≠ 0 := sound.present r user (by rw [place]; rfl)
  have nobody : ∀ other another, (s.reader other).offered = some another → False := by
    intro other another offered
    have base := (sound.owner other another offered).1
    exact sound.present other another (ReadAt.asked_of_offered offered) (base.symm.trans null)
  have given : (s.setVbuf (Vbuf.setBuf user)).Sound := by
    constructor
    · exact sound.sized
    · exact sound.present
    · exact fun other another offered => (nobody other another offered).elim
    · exact sound.alone
    · exact user.bounded
    · exact fun zero => absurd zero based
    · exact sound.receiving_of_null null based rfl
    · exact fun get => absurd get (sound.quiet null).2
    · exact sound.success
  refine given.setReader ?_ ?_ (fun another frameLen now => (nomatch now))
  · intro another asked
    rwa [← Option.some.inj asked]
  · intro another offered
    rw [← Option.some.inj offered]
    exact ⟨rfl, rfl, fun other third now => (nobody other third now).elim⟩

theorem Sound.classify {r : Nat} {user : UserBuf} (sound : s.Sound) (place : s.reader r = .woken user) :
    (s.classify r user).Sound := by
  have before : (s.reader r).offered = some user := by rw [place]; rfl
  rw [Video.classify]
  split
  next get =>
    refine sound.proceed before rfl fun another frameLen now => ?_
    obtain ⟨_, same, _⟩ := ReadAt.outcome.inj now
    exact ⟨get, same.symm⟩
  · exact sound.proceed before rfl fun another frameLen now => absurd (ReadAt.outcome.inj now).2.2 (by decide)
  · exact sound.proceed before rfl fun another frameLen now => absurd (ReadAt.outcome.inj now).2.2 (by decide)
  · exact sound.proceed before rfl fun another frameLen now => absurd (ReadAt.outcome.inj now).2.2 (by decide)

/-- Taking the buffer back stops the frame that is under way. -/
theorem Sound.receiving_of_cleared (sound : s.Sound) (uncommitted : ¬s.Committed) :
    (s.setVbuf Vbuf.clearBuf).Receiving := by
  have receiving := sound.receiving
  have part : ∀ past, (s.setVbuf Vbuf.clearBuf).PartOf past := fun past copying => BufSta.noConfusion copying
  rw [Receiving] at receiving ⊢
  rw [Committed] at uncommitted
  dsimp only [setVbuf]
  split <;> rename_i place <;> rw [place] at receiving uncommitted
  · exact part _
  · exact part _
  · exact ⟨fun starts => absurd starts uncommitted, receiving.2.imp fun past known => ⟨known.1, part past⟩⟩
  · exact receiving.imp fun past known => ⟨known.1, part past⟩
  · exact ⟨fun last => absurd last uncommitted, fun copying => BufSta.noConfusion copying⟩
  · exact ⟨fun last => absurd last uncommitted, fun copying => BufSta.noConfusion copying⟩
  · exact absurd trivial uncommitted
  · exact absurd rfl uncommitted
  · trivial
  · trivial

theorem Sound.finish {r : Nat} {user : UserBuf} {frameLen : UInt32} {err : Int} (sound : s.Sound)
    (place : s.reader r = .outcome user frameLen err) (uncommitted : ¬s.Committed) :
    (s.finish r user frameLen err).Sound := by
  have before : (s.reader r).offered = some user := by rw [place]; rfl
  have here : ((s.setVbuf Vbuf.clearBuf).setReader r .idle).reader r = .idle := Function.update_self _ _ _
  have there : ∀ other, other ≠ r → ((s.setVbuf Vbuf.clearBuf).setReader r .idle).reader other = s.reader other :=
    fun other apart => Function.update_of_ne apart _ _
  have nobody : ∀ other another,
      (((s.setVbuf Vbuf.clearBuf).setReader r .idle).reader other).offered = some another → False := by
    intro other another offered
    by_cases same : other = r
    · rw [same, here] at offered
      cases offered
    · rw [there other same] at offered
      exact same (sound.alone r other user another before offered)
  constructor
  · exact sound.sized
  · intro other another asked
    by_cases same : other = r
    · rw [same] at asked
      exact nomatch (congrArg ReadAt.asked here).symm.trans asked
    · exact sound.present other another ((congrArg ReadAt.asked (there other same)).symm.trans asked)
  · exact fun other another offered => (nobody other another offered).elim
  · exact fun one other first second offered _ => (nobody one first offered).elim
  · exact Nat.two_pow_pos 32
  · exact fun _ => ⟨BufSta.noConfusion, BufSta.noConfusion⟩
  · exact sound.receiving_of_cleared uncommitted
  · exact fun get => BufSta.noConfusion get
  · intro other another len outcome
    exact (nobody other another (congrArg ReadAt.offered outcome)).elim

theorem Sound.readStep {r : Nat} {timeout : Bool} {t : Video} (sound : s.Sound)
    (hands : ChangesHands s (.read r timeout)) (taken : readStep r timeout s = some t) : t.Sound := by
  rw [ChangesHands] at hands
  rw [VideoBuffer.readStep] at taken
  cases place : s.reader r with
  | idle =>
    rw [place] at taken
    cases taken
  | draining user =>
    rw [place] at taken
    rw [← Option.some.inj taken]
    exact sound.drain place
  | drained user =>
    rw [place] at taken hands
    rw [← Option.some.inj taken]
    exact sound.offer place hands
  | waiting user =>
    rw [place] at taken
    have before : (s.reader r).offered = some user := by rw [place]; rfl
    dsimp only at taken
    split at taken
    · rw [← Option.some.inj taken]
      exact (sound.setSemaphore false).proceed before rfl fun another frameLen now => nomatch now
    · split at taken
      · rw [← Option.some.inj taken]
        exact sound.proceed before rfl fun another frameLen now => absurd (ReadAt.outcome.inj now).2.2 (by decide)
      · cases taken
  | woken user =>
    rw [place] at taken
    rw [← Option.some.inj taken]
    exact sound.classify place
  | outcome user frameLen err =>
    rw [place] at taken hands
    rw [← Option.some.inj taken]
    exact sound.finish place hands

theorem Sound.step {event : Event} {t : Video} (sound : s.Sound) (hands : ChangesHands s event)
    (taken : step event s = some t) : t.Sound := by
  cases event with
  | push p =>
    obtain ⟨rest, same⟩ := Option.ite_none_right_eq_some.mp taken
    rw [← Option.some.inj same]
    exact sound.push rest
  | recv =>
    obtain ⟨_, same⟩ := Option.ite_none_left_eq_some.mp taken
    rw [← Option.some.inj same]
    exact sound.recvStep
  | readFrame r user =>
    obtain ⟨_, same⟩ := Option.ite_none_right_eq_some.mp taken
    rw [← Option.some.inj same]
    exact sound.readFrame
  | read r timeout => exact sound.readStep hands taken
  | store addr value =>
    obtain ⟨outside, same⟩ := Option.ite_none_left_eq_some.mp taken
    rw [← Option.some.inj same]
    exact sound.store outside

/-! ## What is returned -/

theorem recvStep_kept : s.recvStep.reports = s.reports ∧ s.recvStep.pushed = s.pushed := by
  rw [Video.recvStep]
  split
  · exact ⟨rfl, rfl⟩
  · split <;> exact ⟨rfl, rfl⟩
  · split
    · split <;> exact ⟨rfl, rfl⟩
    · exact ⟨rfl, rfl⟩
  all_goals exact ⟨rfl, rfl⟩

theorem push_kept : (s.push p).reports = s.reports ∧ (s.push p).pushed = s.pushed ++ [p] := by
  unfold Video.push
  dsimp only
  split
  · split <;> exact ⟨rfl, rfl⟩
  · exact ⟨rfl, rfl⟩

theorem intact_mono {t : Video} (intact : Intact s) (same : t.reports = s.reports)
    (longer : s.pushed.Sublist t.pushed) : Intact t := by
  intro report member zero
  rw [same] at member
  obtain ⟨packets, among, frame, bytes⟩ := intact report member zero
  exact ⟨packets, among.trans longer, frame, bytes⟩

theorem intact_report {t : Video} {report : Report} (intact : Intact s) (one : t.reports = report :: s.reports)
    (same : t.pushed = s.pushed) (last : report.Intact s.pushed) : Intact t := by
  intro other member
  rw [one] at member
  rw [same]
  cases List.mem_cons.mp member with
  | inl now => rwa [now]
  | inr early => exact intact other early

/-- The frame has not more bytes than the buffer, so its length is returned as it is. -/
theorem Sound.finish_intact {r : Nat} {user : UserBuf} {frameLen : UInt32} {err : Int} (sound : s.Sound)
    (place : s.reader r = .outcome user frameLen err) (intact : Intact s) : Intact (s.finish r user frameLen err) := by
  refine intact_report intact rfl rfl fun zero => ?_
  obtain rfl : err = 0 := zero
  obtain ⟨get, rfl⟩ := sound.success r user frameLen place
  obtain ⟨packets, among, frame, collects⟩ := (sound.got get).1
  obtain ⟨base, len⟩ := sound.owner r user (by rw [place]; rfl)
  have clamped : (if s.vbuf.frameLen ≥ user.bufLen then user.bufLen else s.vbuf.frameLen) = s.vbuf.frameLen := by
    split
    next full =>
      have fits := collects.fits
      rw [← collects.length, len] at fits
      exact UInt32.le_antisymm full (UInt32.le_iff_toNat_le.mpr fits)
    · rfl
  refine ⟨packets, among, frame, ?_⟩
  change readBytes s.memory user.buf.toNat (UInt32.toNat _) = content packets
  rw [clamped, ← base]
  exact collects.holds.read_of_length collects.length.symm

theorem Sound.read_intact {r : Nat} {timeout : Bool} {t : Video} (sound : s.Sound) (intact : Intact s)
    (taken : VideoBuffer.readStep r timeout s = some t) : Intact t := by
  rw [VideoBuffer.readStep] at taken
  cases place : s.reader r with
  | idle =>
    rw [place] at taken
    cases taken
  | draining user =>
    rw [place] at taken
    rw [← Option.some.inj taken, Video.drain]
    split <;> exact intact
  | drained user =>
    rw [place] at taken
    rw [← Option.some.inj taken]
    exact intact
  | waiting user =>
    rw [place] at taken
    dsimp only at taken
    split at taken
    · rw [← Option.some.inj taken]
      exact intact
    · split at taken
      · rw [← Option.some.inj taken]
        exact intact
      · cases taken
  | woken user =>
    rw [place] at taken
    rw [← Option.some.inj taken]
    exact intact
  | outcome user frameLen err =>
    rw [place] at taken
    rw [← Option.some.inj taken]
    exact sound.finish_intact place intact

theorem step_intact {event : Event} {t : Video} (sound : s.Sound) (intact : Intact s)
    (taken : VideoBuffer.step event s = some t) : Intact t := by
  cases event with
  | push p =>
    obtain ⟨_, same⟩ := Option.ite_none_right_eq_some.mp taken
    rw [← Option.some.inj same]
    refine intact_mono intact push_kept.1 ?_
    rw [push_kept.2]
    exact List.sublist_append_left _ _
  | recv =>
    obtain ⟨_, same⟩ := Option.ite_none_left_eq_some.mp taken
    rw [← Option.some.inj same]
    refine intact_mono intact recvStep_kept.1 ?_
    rw [recvStep_kept.2]
  | readFrame r user =>
    obtain ⟨_, same⟩ := Option.ite_none_right_eq_some.mp taken
    rw [← Option.some.inj same, Video.readFrame]
    split
    · exact intact_report intact rfl rfl fun zero => absurd (show (-1 : Int) = 0 from zero) (by decide)
    · split
      · exact intact
      · exact intact_report intact rfl rfl fun zero => absurd (show (-5 : Int) = 0 from zero) (by decide)
  | read r timeout => exact sound.read_intact intact taken
  | store addr value =>
    obtain ⟨_, same⟩ := Option.ite_none_left_eq_some.mp taken
    rw [← Option.some.inj same]
    exact intact

theorem opened_sound (memory : Cells) : (opened memory).Sound where
  sized _ same := nomatch same
  present _ _ asked := nomatch asked
  owner _ _ offered := nomatch offered
  alone _ _ _ _ offered := nomatch offered
  bounded := Nat.two_pow_pos 32
  quiet _ := ⟨BufSta.noConfusion, BufSta.noConfusion⟩
  receiving copying := BufSta.noConfusion copying
  got get := BufSta.noConfusion get
  success _ _ _ same := nomatch same

end Video

/-- A whole frame of nine bytes. -/
def onePacketFrame : Packet := ⟨[1, 1, 1, 1, 0xff, 0xd8, 0xff, 0xd9, 0, 4, 0, 0, 0], by decide⟩

def firstBuf : UserBuf := ⟨0x1000, 16, by decide⟩
def secondBuf : UserBuf := ⟨0x2000, 16, by decide⟩

/-- A call up to where it waits. -/
def startRead (r : Nat) (user : UserBuf) : List Event := [.read r false, .read r false, .readFrame r user]

/-- A call from its wake-up to its return. -/
def endRead (r : Nat) : List Event := [.read r false, .read r false, .read r false]

/-- Nine zeros for a frame whose only packet has other bytes. -/
theorem not_intact_of_zeros {s : Video} (pushed : s.pushed = [onePacketFrame])
    (member : ⟨9, 0, List.replicate 9 0⟩ ∈ s.reports) : ¬Intact s := by
  intro intact
  obtain ⟨packets, among, _, bytes⟩ := intact _ member rfl
  rw [pushed] at among
  cases among with
  | cons _ none =>
    rw [List.sublist_nil.mp none] at bytes
    cases bytes
  | cons_cons _ none =>
    rw [List.sublist_nil.mp none] at bytes
    exact absurd bytes (by decide)

/-- Two calls find no buffer on offer, and the buffer of the later one replaces
that of the other, which gets the end of the frame. -/
theorem two_calls_misread : ¬∀ moments final, Run (Machine.Step step) (Video.opened fun _ => 0) moments final →
    Machine.Always Intact moments final := by
  intro claim
  have misread : (Machine.replay step (Video.opened fun _ => 0)
      (endRead 0 ++ List.replicate 7 .recv ++ [.push onePacketFrame] ++ [.read 1 false, .read 1 false] ++
        [.read 0 false, .read 0 false] ++ [.readFrame 1 secondBuf, .readFrame 0 firstBuf])).any
      (fun s => decide (s.pushed = [onePacketFrame] ∧ ⟨9, 0, List.replicate 9 0⟩ ∈ s.reports)) = true := by
    decide
  obtain ⟨moments, final, run, -, shown⟩ := Machine.run_of_any misread
  obtain ⟨pushed, member⟩ := of_decide_eq_true shown
  exact not_intact_of_zeros pushed member (claim moments final run).2

end BekenSdk.VideoBuffer
