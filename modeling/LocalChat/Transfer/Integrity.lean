import LocalChat.Transfer.Receive

/-!
# A file arrives as it was sent

`file_received`: whatever the sender's worker has put on the wire by the time of its END
frame, the receiving host turns back into the file.  The worker's side is `exists_transfer`,
the session's `Transfer.feed_frames`, the app's `Transfer.listenToMail_events`.
-/

namespace LocalChat

open Octets PosixPath

/-- Before 5 * 2^40 ms the sixth byte of a timestamp is not the chat type. -/
theorem undisguised_of_lt {now : UInt64} (h : now.toNat < 5 * 2 ^ 40) :
    UInt8.ofNat (now.toNat / 256 ^ 5) ≠ BVTCPMessageType.chatMessage := by
  intro he
  have hval := congrArg UInt8.toNat he
  rw [UInt8.toNat_ofNat'] at hval
  have hlt : now.toNat / 256 ^ 5 < 5 := by omega
  rw [Nat.mod_eq_of_lt (by omega)] at hval
  have : BVTCPMessageType.chatMessage.toNat = 5 := rfl
  omega

def sentFrames (content serviceName fname : Bytes) (key : UInt32) (clock : List UInt64) :
    List FileFrame :=
  (BVFileTransferContext.construct content fname serviceName key).launchFileTransfer clock

/-- **End-to-end integrity.**  If the worker for a non-empty file reaches END, the bytes it has
written, followed by any `r`, bring the file to `<root>/data/<service>/<fname>` of the receiver:
every handler succeeds, whatever the app and its files were before, and the session waits for a
frame again with exactly `r` unread. -/
theorem file_received (content serviceName fname r : Bytes) (key : UInt32) (clock : List UInt64)
    (hpos : 1 ≤ content.length) (hlt : content.length < 2 ^ 32)
    (hs : IsName serviceName) (hf : IsName fname) (hs0 : 0 ∉ serviceName) (hf0 : 0 ∉ fname)
    (hbar : bar ∉ serviceName)
    (hfits : serviceName.length + 1 + fname.length + 1 ≤ 117)
    (hclock : ∀ now ∈ clock, now.toNat < 5 * 2 ^ 40)
    (hend : ∃ f ∈ sentFrames content serviceName fname key clock,
      f.chunk.header.msgType = BVTCPMessageType.fileTransferEnd)
    (s : Session) (hmode : s.FrameMode) (hst : s.state = .established)
    (hsock : s.socket =
      (sentFrames content serviceName fname key clock).flatMap FileFrame.bytes ++ r)
    (envs : List Env)
    (henvs : envs.length = (sentFrames content serviceName fname key clock).length) (a : App) :
    (s.feed envs).FrameMode ∧ (s.feed envs).socket = r ∧
      ∃ events, mailboxOf (s.feed envs).log = mailboxOf s.log ++ events ∧
        (a.listenToMail events).1 = List.replicate events.length .ok ∧
        (a.listenToMail events).2.files
          (resolve a.rootdir ++ [BVReceivedFile.dataDir, serviceName, fname]) = some content := by
  have hne : content ≠ [] := List.ne_nil_of_length_pos hpos
  obtain ⟨t, hframes, rfl, rfl, rfl, rfl, hbegan⟩ :=
    BVFileTransferContext.exists_transfer hne hlt hend
  have hzero : 0 ∉ t.serviceName ++ [bar] ++ t.fname := by
    simp only [List.mem_append, List.mem_singleton, not_or]
    exact ⟨⟨hs0, by decide⟩, hf0⟩
  have hname : t.WellNamed := ⟨hs, hf, hbar, hzero, hfits⟩
  rw [sentFrames, hframes] at hsock henvs
  obtain ⟨hmode', hrest, hmail⟩ := Transfer.feed_frames hmode hst hname
    (undisguised_of_lt (hclock _ hbegan)) hsock henvs
  obtain ⟨hok, hlen, hfile⟩ := Transfer.listenToMail_events hbar a
  rw [hname.location_eq] at hfile
  exact ⟨hmode', hrest, t.events, hmail, List.eq_replicate_iff.mpr ⟨hlen, hok⟩, hfile⟩

/-- The file `hi` of the host `a`, sent under the name `b` and followed by a byte 7. -/
theorem file_received_hi :
    ∃ events, mailboxOf ((Session.idle [98] [97]
        ((sentFrames [104, 105] [97] [98] 3 [0, 0]).flatMap FileFrame.bytes ++ [7])).feed
          [.blank, .blank]).log = events ∧
      ((App.start [47] fun _ => none).listenToMail events).2.files
        [BVReceivedFile.dataDir, [97], [98]] = some [104, 105] := by
  obtain ⟨-, -, events, hmail, -, hfile⟩ := file_received [104, 105] [97] [98] [7] 3 [0, 0]
    (by decide) (by decide) (by decide) (by decide) (by decide) (by decide) (by decide) (by decide)
    (by simp) (by decide) _ (Session.idle_frameMode _ _ _) rfl rfl [.blank, .blank] (by decide)
    (App.start [47] fun _ => none)
  exact ⟨events, hmail, hfile⟩

end LocalChat
