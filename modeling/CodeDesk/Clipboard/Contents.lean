/-
# Reading a file of the peer

The side that pastes asks for a range of a file: `FuseServer::read_node`
(`fuse/cs.rs`) for each read of the mounted files, and
`PasteTask::send_file_contents_request` (`macos/paste_task.rs`) for one block
after the other. The 64-bit offset goes in two `i32` halves. The side that
copied puts it together again and reads (`read_file_contents` and
`serve_file_contents` of `serv_files.rs`, `read_exact_at` of `local_file.rs`);
`serve_clip_messages` makes a failure response of an error, on which `read_node`
asks again. The two conversions between `ClipboardFile` and the protobuf message
copy each field.

`n_position_low as u64` extends the sign of the low half, so an offset whose bit
31 is set becomes one in the last 4 GiB of 64 bits, and `cb_requested as u64`
does the same to a size of 2 GiB or more. Other ranges arrive as they were sent,
and only they do (`readNode_range`, `blockRequest_range`, together
`file_range_iff`); what is then read is the slice of the file (`serve_slice`).
-/
import CodeDesk.Clipboard.PasteTask
import CodeDesk.Sealing
import Mathlib.Data.Nat.Bitwise

namespace CodeDesk.Clipboard

open Fs (asUsize)

/-! ### Requests -/

/-- `z as i32`. -/
def castI32 (z : ℤ) : ℤ := (z + 2 ^ 31) % 2 ^ 32 - 2 ^ 31

/-- `z as u64`; of an `i32` the sign is extended. -/
def asU64 (z : ℤ) : ℕ := (z % 2 ^ 64).toNat

structure FileContentsRequest where
  streamId : ℤ
  listIndex : ℤ
  dwFlags : ℤ
  nPositionLow : ℤ
  nPositionHigh : ℤ
  cbRequested : ℤ
  haveClipDataId : Bool
  clipDataId : ℤ
  deriving DecidableEq, Repr

/-- The request of `read_node`: `offset` is an `i64`, `size` a `u32`. -/
def readNodeRequest (streamId : ℤ) (index : ℕ) (offset : ℤ) (size : ℕ) : FileContentsRequest where
  streamId := streamId
  listIndex := asI32 index
  dwFlags := 2
  nPositionLow := castI32 (offset % 2 ^ 32)
  nPositionHigh := castI32 (offset / 2 ^ 32)
  cbRequested := asI32 size
  haveClipDataId := false
  clipDataId := 0

def blockSize : ℕ := 4 * 1024 * 1024

/-- The request of `send_file_contents_request` for the next block of `file`. -/
def PasteTaskHandle.blockRequest (h : PasteTaskHandle) (file : FileDescription) :
    FileContentsRequest where
  streamId := h.listIndex
  listIndex := h.listIndex
  dwFlags := 2
  nPositionLow := asI32 (h.offset % 2 ^ 32)
  nPositionHigh := asI32 (h.offset / 2 ^ 32)
  cbRequested := asI32 (min blockSize (asU64 ((file.size : ℤ) - (h.offset : ℤ))))
  haveClipDataId := false
  clipDataId := 0

/-- What `send_file_contents_request` sends, if it sends anything. -/
def PasteTaskHandle.fileContentsRequest (h : PasteTaskHandle) :
    Except CliprdrError (Option FileContentsRequest) :=
  if h.isFinished then .ok none
  else
    match h.files[asUsize h.listIndex]? with
    | none => .error (.invalidRequest ("Invalid file index: " ++ toString h.listIndex))
    | some file => .ok (some (h.blockRequest file))

/-! ### Local files -/

abbrev Disk := Key → Option Bytes

structure LocalFile where
  path : Key
  size : ℕ
  isDir : Bool
  handle : Option ℕ := none
  offset : ℕ := 0
  /-- `offset` is where the next read without a seek starts. -/
  positioned : handle.getD 0 = offset := by rfl
  deriving DecidableEq

namespace LocalFile

variable (disk : Disk)

def loadHandle (f : LocalFile) : Except CliprdrError LocalFile :=
  if h : f.isDir = false ∧ f.handle = none then
    match disk f.path with
    | none => .error (.fileError f.path)
    | some _ => .ok { f with handle := some 0, positioned := by rw [← f.positioned, h.2]; rfl }
  else .ok f

/-- The position from which `read_exact_at` reads. -/
def seek (f : LocalFile) (pos offset : ℕ) : ℕ := if offset ≠ f.offset then offset else pos

theorem seek_eq {f : LocalFile} {pos : ℕ} (h : f.handle = some pos) (offset : ℕ) :
    f.seek pos offset = offset := by
  have hpos : pos = f.offset := by rw [← f.positioned, h]; rfl
  unfold seek
  split
  · rfl
  · omega

/-- A read that comes to the end of the file, or fails, closes it. -/
def readExactAt (f : LocalFile) (len offset : ℕ) : LocalFile × Except CliprdrError Bytes :=
  match f.loadHandle disk with
  | .error err => (f, .error err)
  | .ok f =>
    match h : f.handle with
    | none => (f, .error (.fileError f.path))
    | some pos =>
      let data := (((disk f.path).getD []).drop (f.seek pos offset)).take len
      if data.length < len then
        ({ f with handle := none, offset := 0, positioned := rfl }, .error (.fileError f.path))
      else if f.size ≤ offset + len then
        ({ f with handle := none, offset := 0, positioned := rfl }, .ok data)
      else
        ({ f with
          handle := some (f.seek pos offset + len)
          offset := offset + len
          positioned := by rw [seek_eq h]; rfl }, .ok data)

end LocalFile

/-! ### The serving side -/

inductive ClipboardFile where
  | files (files : List (Key × ℕ))
  | fileContentsResponse (msgFlags streamId : ℤ) (requestedData : Bytes)
  deriving DecidableEq, Repr

inductive Wanted where
  | size (streamId : ℤ) (fileIdx : ℕ)
  | range (streamId : ℤ) (fileIdx offset length : ℕ)
  deriving DecidableEq, Repr

structure ClipFiles where
  fileList : List LocalFile
  firstFileIndex : ℕ
  deriving DecidableEq

namespace ClipFiles

variable (disk : Disk) (connId : ℤ)

/-- The files of a transfer are reported with the first byte of the first one. -/
def getFilesForAudit (c : ClipFiles) : Wanted → Option ClipboardFile
  | .size _ _ => none
  | .range _ fileIdx offset _ =>
    if fileIdx = c.firstFileIndex ∧ offset = 0 then
      let files := c.fileList.filterMap fun f =>
        if (disk f.path).isSome then some (f.path, f.size) else none
      if files = [] then none else some (.files files)
    else none

/-- The next file is opened ahead. -/
def hotReload : List LocalFile → Except CliprdrError (List LocalFile)
  | [] => .ok []
  | f :: fs =>
    if f.isDir then (hotReload fs).map (f :: ·) else (f.loadHandle disk).map (· :: fs)

/-- The end of `serve_file_contents`: an error here takes the place of the
response. -/
def respond (c : ClipFiles) (fileIdx : ℕ) (resp : ClipboardFile) :
    ClipFiles × Except CliprdrError ClipboardFile :=
  match hotReload disk (c.fileList.drop (fileIdx + 1)) with
  | .error err => (c, .error err)
  | .ok rest => ({ c with fileList := c.fileList.take (fileIdx + 1) ++ rest }, .ok resp)

def invalidIndex (fileIdx : ℕ) : CliprdrError :=
  .invalidRequest ("invalid file index " ++ toString fileIdx ++ " requested from conn: " ++
    toString connId)

def invalidOffset : CliprdrError :=
  .invalidRequest ("invalid reading offset requested from conn: " ++ toString connId)

/-- The sum is 64-bit. Where it wraps, `length` bytes are more than a buffer can
have; the read of them fails here. -/
def readSize (size offset length : ℕ) : ℕ :=
  if size < (offset + length) % 2 ^ 64 then size - offset else length

def serveFileContents (c : ClipFiles) :
    Wanted → ClipFiles × Except CliprdrError ClipboardFile
  | .size streamId fileIdx =>
    match c.fileList[fileIdx]? with
    | none => (c, .error (invalidIndex connId fileIdx))
    | some f =>
      c.respond disk fileIdx (.fileContentsResponse 0x1 streamId (Sealing.leBytes 8 f.size))
  | .range streamId fileIdx offset length =>
    match c.fileList[fileIdx]? with
    | none => (c, .error (invalidIndex connId fileIdx))
    | some f =>
      if f.size < offset then (c, .error (invalidOffset connId))
      else
        match f.readExactAt disk (readSize f.size offset length) offset with
        | (f, .error err) => ({ c with fileList := c.fileList.set fileIdx f }, .error err)
        | (f, .ok buf) =>
          { c with fileList := c.fileList.set fileIdx f }.respond disk fileIdx
            (.fileContentsResponse 0x1 streamId buf)

end ClipFiles

/-- The offset and the length that `read_file_contents` takes out of a request. -/
def FileContentsRequest.offset (r : FileContentsRequest) : ℕ :=
  asU64 r.nPositionHigh <<< 32 % 2 ^ 64 ||| asU64 r.nPositionLow

def FileContentsRequest.length (r : FileContentsRequest) : ℕ := asU64 r.cbRequested

def FileContentsRequest.wanted (r : FileContentsRequest) : Except CliprdrError Wanted :=
  if r.dwFlags = 0x1 then .ok (.size r.streamId (asUsize r.listIndex))
  else if r.dwFlags = 0x2 then
    .ok (.range r.streamId (asUsize r.listIndex) r.offset r.length)
  else .error (.invalidRequest ("got invalid FileContentsRequest, dw_flats: " ++
    toString r.dwFlags))

def readFileContents (disk : Disk) (connId : ℤ) (r : FileContentsRequest) (c : ClipFiles) :
    ClipFiles × List (Except CliprdrError ClipboardFile) :=
  match r.wanted with
  | .error err => (c, [.error err])
  | .ok fcr =>
    ((c.serveFileContents disk connId fcr).1,
      ((c.getFilesForAudit disk fcr).map Except.ok).toList ++
        [(c.serveFileContents disk connId fcr).2])

/-- The answers of `serve_clip_messages` to a request. -/
def serveClipMessages (disk : Disk) (connId : ℤ) (r : FileContentsRequest) (c : ClipFiles) :
    ClipFiles × List ClipboardFile :=
  ((readFileContents disk connId r c).1,
    (readFileContents disk connId r c).2.map fun
      | .ok data => data
      | .error _ => .fileContentsResponse 0x2 r.streamId [])

/-! ### The side that reads -/

inductive ReadError where
  | failureRequest
  | timedOut
  deriving DecidableEq, Repr

/-- The reply to request `streamId`. `msg_2_clip` drops the list of files. -/
def reply (streamId : ℤ) : List ClipboardFile → Option (ℤ × Bytes)
  | [] => none
  | .files _ :: rest => reply streamId rest
  | .fileContentsResponse msgFlags id data :: rest =>
    if id ≠ streamId then reply streamId rest else some (msgFlags, data)

/-- The loop of `read_node`, with `n` retries left. -/
def readLoop (disk : Disk) (connId : ℤ) (r : FileContentsRequest) :
    ℕ → ClipFiles → ClipFiles × Except ReadError Bytes
  | n, c =>
    match reply r.streamId (serveClipMessages disk connId r c).2 with
    | none => ((serveClipMessages disk connId r c).1, .error .timedOut)
    | some (msgFlags, data) =>
      if msgFlags % 2 = 0 then
        match n with
        | 0 => ((serveClipMessages disk connId r c).1, .error .failureRequest)
        | n + 1 => readLoop disk connId r n (serveClipMessages disk connId r c).1
      else ((serveClipMessages disk connId r c).1, .ok data)

/-- `read_node` with the peer at the other end of the connection. -/
def readNode (disk : Disk) (connId streamId : ℤ) (index : ℕ) (offset : ℤ) (size : ℕ)
    (c : ClipFiles) : ClipFiles × Except ReadError Bytes :=
  readLoop disk connId (readNodeRequest streamId index offset size) 3 c

/-! ### Numbers through `i32` -/

variable {n o i : ℕ} {r : FileContentsRequest}

theorem asU64_asI32 (h : n < 2 ^ 31) : asU64 (asI32 n) = n := by
  unfold asU64 asI32
  omega

theorem asU64_asI32_of_sign (h : 2 ^ 31 ≤ n) (hn : n < 2 ^ 32) :
    asU64 (asI32 n) = 2 ^ 64 - 2 ^ 32 + n := by
  unfold asU64 asI32
  omega

theorem asU64_asI32_iff (hn : n < 2 ^ 32) : asU64 (asI32 n) = n ↔ n < 2 ^ 31 := by
  constructor
  · intro h
    by_contra hs
    rw [asU64_asI32_of_sign (by omega) hn] at h
    omega
  · exact asU64_asI32

/-- The offset comes out as it went in unless the low half has a sign. -/
theorem offset_eq_iff (ho : o < 2 ^ 63) (hlow : r.nPositionLow = asI32 (o % 2 ^ 32))
    (hhigh : r.nPositionHigh = asI32 (o / 2 ^ 32)) : r.offset = o ↔ o % 2 ^ 32 < 2 ^ 31 := by
  rw [FileContentsRequest.offset, hlow, hhigh, asU64_asI32 (n := o / 2 ^ 32) (by omega)]
  constructor
  · intro h
    by_contra hs
    rw [asU64_asI32_of_sign (by omega) (by omega)] at h
    have hle : 2 ^ 64 - 2 ^ 32 + o % 2 ^ 32 ≤
        (o / 2 ^ 32) <<< 32 % 2 ^ 64 ||| (2 ^ 64 - 2 ^ 32 + o % 2 ^ 32) := Nat.right_le_or
    omega
  · intro h
    have hshift : (o / 2 ^ 32) <<< 32 % 2 ^ 64 = 2 ^ 32 * (o / 2 ^ 32) := by
      omega
    rw [asU64_asI32 h, hshift, ← Nat.two_pow_add_eq_or_of_lt (by omega)]
    omega

/-- A low half with a sign makes an offset in the last 4 GiB. -/
theorem le_offset (hlow : r.nPositionLow = asI32 (o % 2 ^ 32)) (hs : ¬ o % 2 ^ 32 < 2 ^ 31) :
    2 ^ 64 - 2 ^ 32 ≤ r.offset := by
  rw [FileContentsRequest.offset, hlow, asU64_asI32_of_sign (by omega) (by omega)]
  exact Nat.le_trans (Nat.le_add_right _ _) Nat.right_le_or

/-! ### What is read -/

/-- Every file of the list is on the disk with its size. -/
def ClipFiles.Intact (disk : Disk) (c : ClipFiles) : Prop :=
  ∀ f ∈ c.fileList, f.isDir = false →
    ∃ content, disk f.path = some content ∧ content.length = f.size

namespace LocalFile

variable {disk : Disk} {f : LocalFile} {content : Bytes}

theorem loadHandle_ok (hdir : f.isDir = false) (hd : disk f.path = some content) :
    ∃ g pos, f.loadHandle disk = .ok g ∧ g.handle = some pos ∧ g.path = f.path := by
  unfold loadHandle
  by_cases hh : f.handle = none
  · rw [dif_pos ⟨hdir, hh⟩, hd]
    exact ⟨_, 0, rfl, rfl, rfl⟩
  · rw [dif_neg fun h => hh h.2]
    obtain ⟨pos, hpos⟩ := Option.ne_none_iff_exists'.1 hh
    exact ⟨f, pos, rfl, hpos, rfl⟩

theorem readExactAt_ok (hdir : f.isDir = false) (hd : disk f.path = some content)
    {len offset : ℕ} (hl : offset + len ≤ content.length) :
    (f.readExactAt disk len offset).2 = .ok ((content.drop offset).take len) := by
  obtain ⟨g, pos, hg, hpos, hpath⟩ := loadHandle_ok hdir hd
  have hdata : ¬ ((content.drop offset).take len).length < len := by
    rw [List.length_take, List.length_drop]
    omega
  rw [readExactAt, hg]
  dsimp only
  split
  case h_1 hn =>
    simp [hpos] at hn
  case h_2 pos' hp =>
    simp only [seek_eq hp, hpath, hd, Option.getD_some, if_neg hdata]
    split <;> rfl

end LocalFile

namespace ClipFiles

variable {disk : Disk} {c : ClipFiles} {f : LocalFile} {content : Bytes}

/-- The next file of the list is open, or can be opened. -/
def NextOpens (disk : Disk) (fs : List LocalFile) : Prop :=
  ∀ g ∈ fs.find? (!·.isDir), g.handle.isSome = true ∨ (disk g.path).isSome = true

theorem hotReload_ok_iff {fs : List LocalFile} :
    (∃ gs, hotReload disk fs = .ok gs) ↔ NextOpens disk fs := by
  induction fs with
  | nil => simp [hotReload, NextOpens]
  | cons f fs ih =>
    cases hdir : f.isDir with
    | true =>
      have hnext : NextOpens disk (f :: fs) ↔ NextOpens disk fs := by
        simp [NextOpens, hdir]
      rw [hnext, ← ih]
      cases hr : hotReload disk fs <;> simp [hotReload, hdir, hr, Except.map]
    | false =>
      have hnext : NextOpens disk (f :: fs) ↔
          f.handle.isSome = true ∨ (disk f.path).isSome = true := by
        simp [NextOpens, hdir]
      rw [hnext]
      cases hh : f.handle <;> cases hd : disk f.path <;>
        simp [hotReload, hdir, LocalFile.loadHandle, hh, hd, Except.map]

section

variable {i offset length : ℕ} (hi : c.fileList[i]? = some f) (hdir : f.isDir = false)
  (hd : disk f.path = some content) (connId streamId : ℤ) (ho : offset ≤ f.size)
  (hw : offset + length < 2 ^ 64)

include hi hdir hd ho hw

/-- The answer is the slice if the next file opens, else an error. -/
theorem serve_slice_iff (hsize : content.length = f.size) :
    (c.serveFileContents disk connId (.range streamId i offset length)).2 =
      .ok (.fileContentsResponse 0x1 streamId ((content.drop offset).take length)) ↔
    NextOpens disk (c.fileList.drop (i + 1)) := by
  have hread : offset + readSize f.size offset length ≤ content.length := by
    unfold readSize
    split <;> omega
  have hdata : (content.drop offset).take (readSize f.size offset length) =
      (content.drop offset).take length := by
    unfold readSize
    split
    · rw [List.take_of_length_le (by rw [List.length_drop]; omega),
        List.take_of_length_le (by rw [List.length_drop]; omega)]
    · rfl
  have hok := LocalFile.readExactAt_ok hdir hd hread
  simp only [serveFileContents, hi, if_neg (Nat.not_lt.2 ho)]
  generalize f.readExactAt disk (readSize f.size offset length) offset = res at hok
  obtain ⟨g, _⟩ := res
  obtain rfl := hok
  -- The files behind this one are as they were.
  have hrest : (c.fileList.set i g).drop (i + 1) = c.fileList.drop (i + 1) :=
    List.drop_set_of_lt (by omega)
  rw [← hotReload_ok_iff]
  simp only [respond, hrest]
  cases hotReload disk (c.fileList.drop (i + 1)) <;> simp [hdata]

theorem serve_slice (hc : c.Intact disk) :
    (c.serveFileContents disk connId (.range streamId i offset length)).2 =
      .ok (.fileContentsResponse 0x1 streamId ((content.drop offset).take length)) := by
  have hsize : content.length = f.size := by
    obtain ⟨content', hd', hl⟩ := hc f (List.mem_of_getElem? hi) hdir
    rw [Option.some.inj (hd.symm.trans hd'), hl]
  refine (serve_slice_iff hi hdir hd connId streamId ho hw hsize).2 fun g hg => .inr ?_
  have hgdir : g.isDir = false := by simpa using List.find?_some hg
  obtain ⟨content', hd', -⟩ := hc g (List.mem_of_mem_drop (List.mem_of_find?_eq_some hg)) hgdir
  rw [hd', Option.isSome_some]

end

theorem serve_beyond {i : ℕ} (hi : c.fileList[i]? = some f) (connId streamId : ℤ)
    {offset length : ℕ} (ho : f.size < offset) :
    c.serveFileContents disk connId (.range streamId i offset length) =
      (c, .error (invalidOffset connId)) := by
  simp only [serveFileContents, hi, if_pos ho]

end ClipFiles

section Replies

variable {disk : Disk} {connId : ℤ} {r : FileContentsRequest} {c : ClipFiles} {w : Wanted}

theorem getFilesForAudit_files (disk : Disk) (c : ClipFiles) (w : Wanted) :
    c.getFilesForAudit disk w = none ∨ ∃ l, c.getFilesForAudit disk w = some (.files l) := by
  unfold ClipFiles.getFilesForAudit
  split
  · exact .inl rfl
  split
  · dsimp only
    split
    · exact .inl rfl
    · exact .inr ⟨_, rfl⟩
  · exact .inl rfl

section

variable (hw : r.wanted = .ok w)

include hw

theorem reply_serve : reply r.streamId (serveClipMessages disk connId r c).2 =
      reply r.streamId [match (c.serveFileContents disk connId w).2 with
        | .ok data => data
        | .error _ => .fileContentsResponse 0x2 r.streamId []] := by
  simp only [serveClipMessages, readFileContents, hw, List.map_append]
  rcases getFilesForAudit_files disk c w with h | ⟨l, h⟩ <;> rw [h] <;> rfl

theorem reply_ok {data : Bytes}
    (h : (c.serveFileContents disk connId w).2 = .ok (.fileContentsResponse 0x1 r.streamId data)) :
    reply r.streamId (serveClipMessages disk connId r c).2 = some (0x1, data) := by
  rw [reply_serve hw, h]
  simp [reply]

theorem reply_error {err : CliprdrError} (h : (c.serveFileContents disk connId w).2 = .error err) :
    reply r.streamId (serveClipMessages disk connId r c).2 = some (0x2, []) := by
  rw [reply_serve hw, h]
  simp [reply]

theorem readLoop_ok {data : Bytes}
    (h : (c.serveFileContents disk connId w).2 = .ok (.fileContentsResponse 0x1 r.streamId data))
    (n : ℕ) : (readLoop disk connId r n c).2 = .ok data := by
  unfold readLoop
  rw [reply_ok hw h]
  rfl

theorem readLoop_error {err : CliprdrError}
    (h : c.serveFileContents disk connId w = (c, .error err)) (n : ℕ) :
    (readLoop disk connId r n c).2 = .error .failureRequest := by
  have hreply := reply_error (r := r) hw (congrArg Prod.snd h)
  have hstate : (serveClipMessages disk connId r c).1 = c := by
    simp only [serveClipMessages, readFileContents, hw, h]
  induction n with
  | zero =>
    rw [readLoop, hreply]
    rfl
  | succ n ih =>
    rw [readLoop, hreply, hstate]
    exact ih

end

end Replies

/-! ### Ranges of a file -/

theorem asUsize_asI32 (h : i < 2 ^ 31) : asUsize (asI32 i) = i := by
  unfold asUsize asI32
  omega

theorem length_block {size offset : ℕ} (ho : offset ≤ size) (hs : size < 2 ^ 63) :
    asU64 (asI32 (min blockSize (asU64 ((size : ℤ) - (offset : ℤ))))) =
      min blockSize (size - offset) := by
  have hsub : asU64 ((size : ℤ) - (offset : ℤ)) = size - offset := by
    unfold asU64
    omega
  rw [hsub]
  apply asU64_asI32
  unfold blockSize
  omega

theorem wanted_range (hflags : r.dwFlags = 2) (hidx : asUsize r.listIndex = i) :
    r.wanted = .ok (.range r.streamId i r.offset r.length) := by
  simp [FileContentsRequest.wanted, hflags, hidx]

section Range

variable {disk : Disk} {c : ClipFiles} {i : ℕ} {f : LocalFile} {content : Bytes}

theorem blockRequest_range (hc : c.Intact disk) (hi : c.fileList[i]? = some f)
    (hdir : f.isDir = false) (hd : disk f.path = some content) (hsize : f.size < 2 ^ 63)
    (connId : ℤ) {h : PasteTaskHandle} {file : FileDescription} (hidx : asUsize h.listIndex = i)
    (hfsize : file.size = f.size) (hle : h.offset ≤ f.size) :
    ((h.blockRequest file).offset = h.offset ∧
        (h.blockRequest file).length = min blockSize (f.size - h.offset) ↔
      h.offset % 2 ^ 32 < 2 ^ 31) ∧
    reply h.listIndex (serveClipMessages disk connId (h.blockRequest file) c).2 =
      if h.offset % 2 ^ 32 < 2 ^ 31 then
        some (0x1, (content.drop h.offset).take (min blockSize (f.size - h.offset)))
      else some (0x2, []) := by
  have hlen : (h.blockRequest file).length = min blockSize (f.size - h.offset) := by
    rw [← hfsize] at hle hsize ⊢
    exact length_block hle hsize
  have hoff := offset_eq_iff (r := h.blockRequest file) (o := h.offset) (by omega) rfl rfl
  have hw := wanted_range (r := h.blockRequest file) rfl hidx
  rw [hlen] at hw
  refine ⟨⟨fun h => hoff.1 h.1, fun h => ⟨hoff.2 h, hlen⟩⟩, ?_⟩
  split
  case isTrue hsign =>
    rw [hoff.2 hsign] at hw
    refine reply_ok hw (ClipFiles.serve_slice hi hdir hd connId _ hle ?_ hc)
    omega
  case isFalse hsign =>
    have hbig := le_offset (r := h.blockRequest file) (o := h.offset) rfl hsign
    exact reply_error hw (congrArg Prod.snd (ClipFiles.serve_beyond hi connId _ (by omega)))

/-- A request arrives with the offset and the size it was made with exactly when
the low half of the offset, and the size, have no sign bit. It then reads that
slice. With the bit set in the low half it fails, wherever the file ends. A
block of a paste task has no sign bit in its size. -/
theorem file_range_iff (hc : c.Intact disk) (hi : c.fileList[i]? = some f) (hlt : i < 2 ^ 31)
    (hdir : f.isDir = false) (hd : disk f.path = some content) (hsize : f.size < 2 ^ 63)
    (connId streamId : ℤ) :
    (∀ o size : ℕ, o < 2 ^ 63 → size < 2 ^ 32 → ((readNodeRequest streamId i o size).offset = o ∧
          (readNodeRequest streamId i o size).length = size ↔
        o % 2 ^ 32 < 2 ^ 31 ∧ size < 2 ^ 31) ∧
      (o % 2 ^ 32 < 2 ^ 31 → size < 2 ^ 31 → o ≤ f.size →
        (readNode disk connId streamId i o size c).2 = .ok ((content.drop o).take size)) ∧
      (¬ o % 2 ^ 32 < 2 ^ 31 →
        (readNode disk connId streamId i o size c).2 = .error .failureRequest)) ∧
    ∀ (h : PasteTaskHandle) (file : FileDescription), h.isFinished = false → h.listIndex = i →
      h.files[i]? = some file → file.size = f.size → h.offset ≤ f.size →
      ∃ r, h.fileContentsRequest = .ok (some r) ∧
        (r.offset = h.offset ∧ r.length = min blockSize (f.size - h.offset) ↔
          h.offset % 2 ^ 32 < 2 ^ 31) ∧
        reply r.streamId (serveClipMessages disk connId r c).2 = if h.offset % 2 ^ 32 < 2 ^ 31 then
            some (0x1, (content.drop h.offset).take (min blockSize (f.size - h.offset)))
          else some (0x2, []) := by
  constructor
  · intro o size ho hs
    have hoff := offset_eq_iff (r := readNodeRequest streamId i o size) ho rfl rfl
    have hlen : (readNodeRequest streamId i o size).length = size ↔ size < 2 ^ 31 :=
      asU64_asI32_iff hs
    have hw := wanted_range (r := readNodeRequest streamId i o size) rfl (asUsize_asI32 hlt)
    refine ⟨and_congr hoff hlen, fun h₁ h₂ hle => ?_, fun hsign => ?_⟩
    · rw [hoff.2 h₁, hlen.2 h₂] at hw
      exact readLoop_ok hw (ClipFiles.serve_slice hi hdir hd connId streamId hle (by omega) hc) 3
    · have hbig := le_offset (r := readNodeRequest streamId i o size) rfl hsign
      exact readLoop_error hw (ClipFiles.serve_beyond hi connId streamId (by omega)) 3
  · intro h file hfin hidx hfile hfsize hle
    have husize : asUsize h.listIndex = i := by
      rw [hidx]
      unfold asUsize
      omega
    exact ⟨_, by simp [PasteTaskHandle.fileContentsRequest, hfin, husize, hfile],
      blockRequest_range hc hi hdir hd hsize connId husize hfsize hle⟩

end Range

def folderFiles : ClipFiles where
  fileList := [
    { path := [.normal "dir"], size := 0, isDir := true },
    { path := [.normal "dir", .normal "a.bin"], size := 10, isDir := false }]
  firstFileIndex := 1

def folderDisk : Disk := fun path =>
  if path = [.normal "dir", .normal "a.bin"] then some [0, 1, 2, 3, 4, 5, 6, 7, 8, 9] else none

def folderPaste : PasteTaskHandle :=
  { PasteTaskHandle.new "/tmp" [
      { connId := 1, name := "dir", kind := .directory, lastModified := 0, size := 0, perm := 493 },
      { connId := 1, name := "dir/a.bin", kind := .file, lastModified := 0, size := 10,
        perm := 420 }] with
    listIndex := 1
    offset := 6 }

theorem file_range_folder : folderFiles.Intact folderDisk ∧
    (readNode folderDisk 1 7 1 3 4 folderFiles).2 = .ok [3, 4, 5, 6] ∧
    (readNode folderDisk 1 7 1 8 131072 folderFiles).2 = .ok [8, 9] ∧
    ∃ r, folderPaste.fileContentsRequest = .ok (some r) ∧
      reply r.streamId (serveClipMessages folderDisk 1 r folderFiles).2 =
        some (0x1, [6, 7, 8, 9]) := by
  have hc : folderFiles.Intact folderDisk := by
    intro f hf hdir
    simp only [folderFiles, List.mem_cons, List.not_mem_nil, or_false] at hf
    rcases hf with rfl | rfl
    · cases hdir
    · exact ⟨[0, 1, 2, 3, 4, 5, 6, 7, 8, 9], by decide, rfl⟩
  have hrange := file_range_iff (i := 1) (f :=
    { path := [.normal "dir", .normal "a.bin"], size := 10, isDir := false }) hc rfl (by decide)
    rfl (show folderDisk _ = some [0, 1, 2, 3, 4, 5, 6, 7, 8, 9] by decide) (by decide) 1 7
  refine ⟨hc, ?_, ?_, ?_⟩
  · exact (hrange.1 3 4 (by decide) (by decide)).2.1 (by decide) (by decide) (by decide)
  · exact (hrange.1 8 131072 (by decide) (by decide)).2.1 (by decide) (by decide) (by decide)
  · obtain ⟨r, hr, -, hreply⟩ := hrange.2 folderPaste _ (by decide) rfl rfl rfl (by decide)
    exact ⟨r, hr, hreply⟩

def movieFiles : ClipFiles where
  fileList := [{ path := [.normal "movie.mkv"], size := 3 * 2 ^ 30, isDir := false }]
  firstFileIndex := 0

def movieDisk : Disk := fun _ => some (List.replicate (3 * 2 ^ 30) 0)

/-- The read of the movie at 2 GiB asks for bytes near the end of 64 bits, and
fails. -/
theorem movie_unreadable : movieFiles.Intact movieDisk ∧
    (readNodeRequest 7 0 (2 ^ 31) 131072).offset = 2 ^ 64 - 2 ^ 31 ∧
    (readNode movieDisk 1 7 0 (2 ^ 31) 131072 movieFiles).2 = .error .failureRequest := by
  refine ⟨?_, by decide +kernel, by decide +kernel⟩
  intro f hf _
  simp only [movieFiles, List.mem_singleton] at hf
  exact ⟨_, rfl, by rw [hf, List.length_replicate]⟩

end CodeDesk.Clipboard
