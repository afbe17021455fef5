import PadPlay.Lib.Text
import PadPlay.Lib.TimedSource

/-!
# Device tracking (`daemon::tracker`)

`nextUpdate` reads one device list of a `host:track-devices` connection, and `updates` is what the
daemon's main loop makes of a connection: it skips timeouts, since the last list then still stands,
and gives the connection up at any other error. A timeout between two frames is harmless, but one
inside a frame loses the bytes already read (`updates_between_frames`, `updates_desynchronised`).
-/

namespace PadPlay.Daemon.Tracker

open PadPlay.Lib

structure Device where
  serial : Text
  state : Text
  deriving DecidableEq, Repr

def Device.isReady (d : Device) : Bool := d.state = ['d', 'e', 'v', 'i', 'c', 'e']

/-- A failed update: what it was doing, and the I/O error at its root if there is one. -/
structure TrackerError where
  context : String
  cause : Option ReadFault
  deriving DecidableEq, Repr

def isTimeout (e : TrackerError) : Bool := e.cause = some .timeout

def readPayload (stream : List Arrival) : Except TrackerError Text × List Arrival :=
  match Arrival.readExact 4 stream with
  | (.error e, stream) => (.error ⟨"reading ADB length", some e⟩, stream)
  | (.ok lenHex, stream) =>
    match Text.fromUtf8 lenHex with
    | none => (.error ⟨"ADB length was not UTF-8", none⟩, stream)
    | some lenHex =>
      match Text.fromStrRadix 64 16 lenHex with
      | none => (.error ⟨"ADB length was not hex", none⟩, stream)
      | some len =>
        match Arrival.readExact len stream with
        | (.error e, stream) => (.error ⟨"reading ADB payload", some e⟩, stream)
        | (.ok buf, stream) => (.ok (Text.fromUtf8Lossy buf), stream)

def parseDevices (payload : Text) : List Device :=
  (Text.lines payload).filterMap fun line =>
    match Text.splitWhitespace line with
    | serial :: state :: _ => some ⟨serial, state⟩
    | _ => none

def nextUpdate (stream : List Arrival) : Except TrackerError (List Device) × List Arrival :=
  match readPayload stream with
  | (.error e, stream) => (.error e, stream)
  | (.ok payload, stream) => (.ok (parseDevices payload), stream)

/-! ## What one update does to the connection -/

/-- The length a frame's first four bytes announce. -/
def announced (digits : List UInt8) : Option Nat :=
  (Text.fromUtf8 digits).bind (Text.fromStrRadix 64 16)

/-- A whole frame was consumed, and no silence. -/
structure ReadFrame (s : List Arrival) (digits buf : List UInt8) (s' : List Arrival) : Prop where
  four : digits.length = 4
  len : announced digits = some buf.length
  bytes : Arrival.bytes s = digits ++ buf ++ Arrival.bytes s'
  weight : Arrival.weight s' + 4 ≤ Arrival.weight s
  silence : ∀ before after, s' = before ++ .timeout :: after →
    ∃ before', s = before' ++ .timeout :: after ∧
      Arrival.bytes before' = digits ++ buf ++ Arrival.bytes before

/-- A silence came before a frame was complete; what had arrived of it is lost. -/
structure Interrupted (s before s' : List Arrival) : Prop where
  stream : s = before ++ .timeout :: s'
  part : ∀ len, announced ((Arrival.bytes before).take 4) = some len →
    (Arrival.bytes before).length < 4 + len

theorem Interrupted.weight_lt {s before s' : List Arrival} (h : Interrupted s before s') :
    Arrival.weight s' < Arrival.weight s := by
  rw [h.stream]
  simp only [Arrival.weight, List.length_append, List.length_cons, Arrival.bytes_append,
    Arrival.bytes_timeout]
  omega

/-- What `readPayload` has done. -/
inductive DidReadPayload (s : List Arrival) : Except TrackerError Text × List Arrival → Prop
  | read {digits buf s'} (h : ReadFrame s digits buf s') :
      DidReadPayload s (.ok (Text.fromUtf8Lossy buf), s')
  | silence {e before s'} (he : isTimeout e = true) (h : Interrupted s before s') :
      DidReadPayload s (.error e, s')
  | lost {e s'} (he : isTimeout e = false) : DidReadPayload s (.error e, s')

theorem readPayload_spec (s : List Arrival) : DidReadPayload s (readPayload s) := by
  have h₁ := Arrival.readExact_spec 4 s
  unfold readPayload
  rcases hread : Arrival.readExact 4 s with ⟨r, s₁⟩
  rw [hread] at h₁
  cases h₁ with
  | silence before hs hlen =>
    refine .silence rfl ⟨hs, ?_⟩
    intro len _
    omega
  | ended hlen => exact .lost rfl
  | @read digits _ hdigits hbytes hweight hsilence =>
    cases hutf : Text.fromUtf8 digits with
    | none => simp only [hutf]; exact .lost rfl
    | some text =>
      cases hradix : Text.fromStrRadix 64 16 text with
      | none => simp only [hutf, hradix]; exact .lost rfl
      | some len =>
        have hannounced : announced digits = some len := by
          rw [announced, hutf]
          exact hradix
        have h₂ := Arrival.readExact_spec len s₁
        rcases hread₂ : Arrival.readExact len s₁ with ⟨r₂, s₂⟩
        rw [hread₂] at h₂
        simp only [hutf, hradix, hread₂]
        cases h₂ with
        | ended hlen => exact .lost rfl
        | silence before hs hlen =>
          obtain ⟨before', hs', hb⟩ := hsilence before s₂ hs
          refine .silence rfl ⟨hs', ?_⟩
          intro len' h
          rw [hb, List.take_append_of_le_length (by omega), List.take_of_length_le (by omega),
            hannounced] at h
          cases h
          rw [hb, List.length_append]
          omega
        | @read buf _ hlen hbytes₂ hweight₂ hsilence₂ =>
          subst hlen
          refine .read ⟨hdigits, hannounced, ?_, by omega, ?_⟩
          · rw [hbytes, hbytes₂, List.append_assoc]
          · intro before after h
            obtain ⟨mid, hmid, hbmid⟩ := hsilence₂ before after h
            obtain ⟨before', hs', hb⟩ := hsilence mid after hmid
            exact ⟨before', hs', by rw [hb, hbmid, List.append_assoc]⟩

theorem nextUpdate_ok {s s' : List Arrival} {devices : List Device}
    (h : nextUpdate s = (.ok devices, s')) :
    ∃ digits buf, ReadFrame s digits buf s' ∧
      devices = parseDevices (Text.fromUtf8Lossy buf) := by
  have hspec := readPayload_spec s
  unfold nextUpdate at h
  rcases hread : readPayload s with ⟨p, s₁⟩
  rw [hread] at h hspec
  cases hspec with
  | @read digits buf _ hframe => cases h; exact ⟨digits, buf, hframe, rfl⟩
  | silence => cases h
  | lost => cases h

theorem nextUpdate_timeout {s s' : List Arrival} {e : TrackerError}
    (h : nextUpdate s = (.error e, s')) (he : isTimeout e = true) :
    ∃ before, Interrupted s before s' := by
  have hspec := readPayload_spec s
  unfold nextUpdate at h
  rcases hread : readPayload s with ⟨p, s₁⟩
  rw [hread] at h hspec
  cases hspec with
  | read => cases h
  | @silence _ before _ _ hsilence => cases h; exact ⟨before, hsilence⟩
  | lost hlost => cases h; rw [he] at hlost; cases hlost

theorem nextUpdate_weight {stream stream' : List Arrival}
    {r : Except TrackerError (List Device)} (h : nextUpdate stream = (r, stream'))
    (hr : ∀ e, r = .error e → isTimeout e = true) :
    Arrival.weight stream' < Arrival.weight stream := by
  cases r with
  | ok devices =>
    obtain ⟨digits, buf, hread, -⟩ := nextUpdate_ok h
    have := hread.weight
    omega
  | error e =>
    obtain ⟨before, hsilence⟩ := nextUpdate_timeout h (hr e rfl)
    exact hsilence.weight_lt

/-! ## The main loop's view of a connection -/

/-- The lists the daemon's main loop sees on one connection. -/
def updates (stream : List Arrival) : List (List Device) :=
  match _hnext : nextUpdate stream with
  | (.ok devices, stream) => devices :: updates stream
  | (.error e, stream) => if _ht : isTimeout e then updates stream else []
termination_by Arrival.weight stream
decreasing_by
  · exact nextUpdate_weight _hnext nofun
  · exact nextUpdate_weight _hnext fun e' he => by cases he; exact _ht

/-! ## What the server sends -/

/-- `serial`, a tab, `state` and a line feed. -/
def Device.line (d : Device) : Text := d.serial ++ '\t' :: d.state

def payload (devices : List Device) : List UInt8 :=
  Text.utf8Bytes (devices.flatMap fun d => d.line ++ ['\n'])

def Device.Plain (d : Device) : Prop :=
  d.serial ≠ [] ∧ d.state ≠ [] ∧ (d.serial ++ d.state).any Text.isWhitespace = false

instance (d : Device) : Decidable d.Plain := inferInstanceAs (Decidable (_ ∧ _ ∧ _))

theorem Device.Plain.isWord {d : Device} (h : d.Plain) :
    Text.IsWord d.serial ∧ Text.IsWord d.state := by
  have hword : ∀ c ∈ d.serial ++ d.state, Text.isWhitespace c = false := by
    intro c hc
    rw [← Bool.not_eq_true]
    exact List.any_eq_false.1 h.2.2 c hc
  rw [List.forall_mem_append] at hword
  exact ⟨⟨h.1, hword.1⟩, ⟨h.2.1, hword.2⟩⟩

/-- A device list the server can send: its payload's length has four hex digits. -/
structure SentList where
  devices : List Device
  plain : ∀ d ∈ devices, d.Plain
  short : (payload devices).length < 65536

def hexDigit (d : Nat) : Char := Char.ofNat (if d < 10 then 0x30 + d else 0x57 + d)

/-- `"{n:04x}"`. -/
def hex4 (n : Nat) : Text :=
  [hexDigit (n / 4096 % 16), hexDigit (n / 256 % 16), hexDigit (n / 16 % 16), hexDigit (n % 16)]

def SentList.frame (l : SentList) : List UInt8 :=
  Text.utf8Bytes (hex4 (payload l.devices).length) ++ payload l.devices

def wire (lists : List SentList) : List UInt8 := lists.flatMap SentList.frame

private theorem not_mem_line {d : Device} {c : Char} (hc : Text.isWhitespace c = true)
    (htab : c ≠ '\t') (h : d.Plain) : c ∉ d.line := by
  intro hmem
  rw [Device.line, List.mem_append, List.mem_cons] at hmem
  rcases hmem with hmem | hmem | hmem
  · exact h.isWord.1.notMem hc hmem
  · exact htab hmem
  · exact h.isWord.2.notMem hc hmem

theorem wire_cons (l : SentList) (ls : List SentList) : wire (l :: ls) = l.frame ++ wire ls := rfl

theorem parseDevices_payload {devices : List Device} (h : ∀ d ∈ devices, d.Plain) :
    parseDevices (Text.fromUtf8Lossy (payload devices)) = devices := by
  have hlines : Text.lines (devices.flatMap fun d => d.line ++ ['\n']) =
      devices.map Device.line := by
    have hjoined : (devices.flatMap fun d => d.line ++ ['\n']) =
        (devices.map Device.line).flatMap fun l => l ++ ['\n'] := by rw [List.flatMap_map]
    rw [hjoined]
    refine Text.lines_joined ?_ ?_ <;>
    · intro l hl
      obtain ⟨d, hd, rfl⟩ := List.mem_map.1 hl
      exact not_mem_line (by decide) (by decide) (h d hd)
  rw [payload, Text.fromUtf8Lossy_utf8Bytes, parseDevices, hlines, List.filterMap_map]
  refine (List.filterMap_congr fun d hd => ?_).trans List.filterMap_some
  obtain ⟨hserial, hstate⟩ := (h d hd).isWord
  have hwords : Text.splitWhitespace d.line = [d.serial, d.state] :=
    Text.splitWhitespace_pair hserial hstate (by decide)
  simp only [Function.comp_apply, hwords]

theorem announced_hex4 {n : Nat} (h : n < 65536) :
    announced (Text.utf8Bytes (hex4 n)) = some n ∧ (Text.utf8Bytes (hex4 n)).length = 4 := by
  have hdigit : ∀ d < 16, Text.toDigit 16 (hexDigit d) = some d := by decide
  have hsize : ∀ d < 16, (hexDigit d).utf8Size = 1 := by decide
  have hplus : ∀ d < 16, hexDigit d ≠ '+' := by decide
  have h₃ := Nat.mod_lt (n / 4096) (by decide : 16 > 0)
  have h₂ := Nat.mod_lt (n / 256) (by decide : 16 > 0)
  have h₁ := Nat.mod_lt (n / 16) (by decide : 16 > 0)
  have h₀ := Nat.mod_lt n (by decide : 16 > 0)
  refine ⟨?_, ?_⟩
  · rw [announced, Text.fromUtf8_utf8Bytes, Option.bind_some, hex4, Text.fromStrRadix]
    · simp only [Text.readDigits, hdigit _ h₃, hdigit _ h₂, hdigit _ h₁, hdigit _ h₀]
      repeat rw [if_pos (by omega)]
      congr 1
      omega
    · exact List.cons_ne_nil _ _
    · exact fun hc => by simp at hc
    · exact fun _ hc => hplus _ h₃ (List.cons.inj hc).1
  · simp [Text.utf8Bytes_cons_length, hex4, hsize _ h₃, hsize _ h₂, hsize _ h₁, hsize _ h₀]

theorem SentList.frame_length (l : SentList) : l.frame.length = 4 + (payload l.devices).length := by
  rw [SentList.frame, List.length_append, (announced_hex4 l.short).2]

theorem SentList.frame_prefix {l : SentList} {digits buf rest after : List UInt8}
    (hdigits : digits.length = 4) (hannounced : announced digits = some buf.length)
    (h : digits ++ buf ++ rest <+: l.frame ++ after) :
    buf = payload l.devices ∧ digits ++ buf = l.frame ∧ rest <+: after := by
  obtain ⟨t, ht⟩ := h
  obtain ⟨hhex, hhexlen⟩ := announced_hex4 l.short
  rw [SentList.frame] at ht ⊢
  simp only [List.append_assoc] at ht
  obtain ⟨rfl, hpayload⟩ := List.append_inj ht (hdigits.trans hhexlen.symm)
  rw [hhex, Option.some.injEq] at hannounced
  obtain ⟨hbuf, hrest⟩ := List.append_inj hpayload hannounced.symm
  exact ⟨hbuf, by rw [hbuf], t, hrest⟩

/-! ## Timeouts between frames -/

/-- Every silence falls between two frames: before it, whole frames have arrived and no byte of the
next one. -/
def BetweenFrames (lists : List SentList) (stream : List Arrival) : Prop :=
  ∀ before after, stream = before ++ .timeout :: after →
    ∃ k, Arrival.bytes before = wire (lists.take k)

theorem BetweenFrames.read {l : SentList} {ls : List SentList} {s s' : List Arrival}
    {digits buf : List UInt8} (h : BetweenFrames (l :: ls) s) (hread : ReadFrame s digits buf s')
    (hframe : digits ++ buf = l.frame) : BetweenFrames ls s' := by
  intro before after hs'
  obtain ⟨before', hs, hb⟩ := hread.silence before after hs'
  obtain ⟨k, hk⟩ := h before' after hs
  rw [hb] at hk
  cases k with
  | zero =>
    have := congrArg List.length hk
    simp [wire, hread.four] at this
  | succ k =>
    rw [List.take_succ_cons, wire_cons, hframe, List.append_cancel_left_eq] at hk
    exact ⟨k, hk⟩

/-- The timeout cost no byte of the frame it came before. -/
theorem BetweenFrames.silence {lists : List SentList} {s before s' : List Arrival}
    (h : BetweenFrames lists s) (hsilence : Interrupted s before s') :
    Arrival.bytes before = [] ∧ BetweenFrames lists s' := by
  obtain ⟨k, hk⟩ := h before s' hsilence.stream
  have hnone : Arrival.bytes before = [] := by
    cases hlists : lists.take k with
    | nil => rw [hk, hlists]; rfl
    | cons l ls =>
      -- a whole frame before the timeout would have been read
      rw [hlists, wire_cons] at hk
      have hhex := announced_hex4 l.short
      have hfirst : (Arrival.bytes before).take 4 =
          Text.utf8Bytes (hex4 (payload l.devices).length) := by
        rw [hk, SentList.frame, List.append_assoc, ← hhex.2, List.take_left]
      have hlt := hsilence.part _ (by rw [hfirst]; exact hhex.1)
      rw [hk, List.length_append, l.frame_length] at hlt
      omega
  refine ⟨hnone, ?_⟩
  intro mid after hs'
  obtain ⟨j, hj⟩ := h (before ++ .timeout :: mid) after (by simp [hsilence.stream, hs'])
  exact ⟨j, by rw [← hj]; simp [hnone]⟩

/-- **The lists the daemon sees** are a prefix of those the server sent, whatever the segmentation,
if every timeout falls between two frames. -/
theorem updates_between_frames (lists : List SentList) (stream : List Arrival)
    (harrived : Arrival.bytes stream <+: wire lists) (hbetween : BetweenFrames lists stream) :
    updates stream <+: lists.map SentList.devices := by
  fun_induction updates stream generalizing lists with
  | case1 stream devices s' hnext ih =>
    obtain ⟨digits, buf, hread, rfl⟩ := nextUpdate_ok hnext
    rw [hread.bytes] at harrived
    cases lists with
    | nil =>
      have := harrived.length_le
      simp [wire, hread.four] at this
    | cons l ls =>
      obtain ⟨hbuf, hframe, hrest⟩ := SentList.frame_prefix hread.four hread.len harrived
      rw [hbuf, parseDevices_payload l.plain, List.map_cons]
      exact List.cons_prefix_cons.2 ⟨rfl, ih ls hrest (hbetween.read hread hframe)⟩
  | case2 stream e s' hnext htimeout ih =>
    obtain ⟨before, hsilence⟩ := nextUpdate_timeout hnext htimeout
    obtain ⟨hnone, hbetween'⟩ := hbetween.silence hsilence
    refine ih lists ?_ hbetween'
    rw [hsilence.stream, Arrival.bytes_append, hnone, Arrival.bytes_timeout] at harrived
    exact harrived
  | case3 stream e s' hnext htimeout => exact List.nil_prefix

/-- A device that goes offline and comes back: the first list is cut into two reads with a pause in
between that is shorter than a timeout, and there is a timeout before the second one. -/
theorem updates_between_frames_two :
    let offline : Device := ⟨['4', '2', 'a', '7'], ['o', 'f', 'f', 'l', 'i', 'n', 'e']⟩
    let ready : Device := ⟨['4', '2', 'a', '7'], ['d', 'e', 'v', 'i', 'c', 'e']⟩
    let first : SentList := ⟨[offline], by decide, by decide +kernel⟩
    let second : SentList := ⟨[ready], by decide, by decide +kernel⟩
    let stream : List Arrival := [.chunk (first.frame.take 3), .chunk (first.frame.drop 3),
      .timeout, .chunk second.frame]
    updates stream = [[offline], [ready]] ∧ updates stream <+: [[offline], [ready]] := by
  intro offline ready first second stream
  refine ⟨by decide +kernel, ?_⟩
  apply updates_between_frames [first, second] _ (by decide +kernel)
  intro before after h
  rcases before with _ | ⟨a, _ | ⟨b, _ | ⟨c, _ | ⟨d, before⟩⟩⟩⟩
  · simp [stream] at h
  · simp [stream] at h
  · simp only [stream, List.cons_append, List.nil_append, List.cons.injEq] at h
    obtain ⟨rfl, rfl, -⟩ := h
    exact ⟨1, by decide +kernel⟩
  · simp [stream] at h
  · simp [stream] at h

/-- A timeout between the length and the payload: what is read next as a length is the serial's
beginning, and the daemon sees a device the server never listed. -/
theorem updates_desynchronised :
    let device : Device := ⟨['0', '0', '0', '7', 'a', 'b', 'c'], ['d', 'e', 'v', 'i', 'c', 'e']⟩
    let sent : SentList := ⟨[device], by decide, by decide +kernel⟩
    let stream : List Arrival := [.chunk (sent.frame.take 4), .timeout, .chunk (sent.frame.drop 4)]
    Arrival.bytes stream <+: wire [sent] ∧ ¬updates stream <+: [sent].map SentList.devices := by
  decide +kernel

end PadPlay.Daemon.Tracker
