import GoNavi.Machine.Machine
import GoNavi.Scan.Text
import Mathlib.Data.List.Range
import Mathlib.Algebra.Ring.Nat

/-! # Shared strings

The XLSX importer reads the shared strings of a workbook as far as a cell asks for them, and
appends each to a file with its length in front.  One handle serves the appends, which are
buffered, and the reads, which seek.

**The resolver answers as the list of the items does, in any order of the questions**
(`resolver_answers`), until one reaches an item past a limit: the file always holds the records of
the items that have been parsed. -/

namespace GoNavi.Importjob

open Scan List

/-! ### The file -/

/-- A file and the position of its handle. -/
structure SeekFile where
  content : Text
  position : ℕ

/-- What a write at the position leaves; a gap behind the end is filled with zeros. -/
def SeekFile.write (f : SeekFile) (p : Text) : SeekFile where
  content := (f.content ++ replicate (f.position - f.content.length) 0).take f.position ++ p ++
    f.content.drop (f.position + p.length)
  position := f.position + p.length

/-- `binary.LittleEndian`, of a `uint32`. -/
def uint32Bytes (n : ℕ) : Text :=
  [UInt8.ofNat n, UInt8.ofNat (n / 256), UInt8.ofNat (n / 65536), UInt8.ofNat (n / 16777216)]

def uint32Of : Text → ℕ
  | [] => 0
  | c :: t => c.toNat + 256 * uint32Of t

/-! ### The store -/

def maxXLSXSharedStrings : ℕ := 10000000
def maxImportCellBytes : ℕ := 16 * 1024 * 1024
def writerSize : ℕ := 1024 * 256

/-- An error in the text of an item. -/
inductive ItemError where
  | textLimit (maxBytes : ℕ)
  | eof
  deriving DecidableEq

inductive SharedStringError where
  | outOfRange (index : ℤ)
  | countLimit (maxCount : ℕ)
  | valueLimit (maxValueBytes : ℕ)
  | item (e : ItemError)
  | eof
  deriving DecidableEq

/-- The file, what the buffered writer holds back, and the offsets and the size of the records. -/
structure SharedStringStore where
  file : SeekFile
  buffer : Text
  offsets : List ℕ
  size : ℕ

def newXLSXSharedStringStore : SharedStringStore := ⟨⟨[], 0⟩, [], [], 0⟩

namespace SharedStringStore

variable (s : SharedStringStore)

/-- `Flush`. -/
def flush : SharedStringStore :=
  if s.buffer = [] then s else { s with file := s.file.write s.buffer, buffer := [] }

/-- `Write` of the buffered writer: what does not fit goes to the file, at once when nothing is
held back, else behind a full buffer. -/
def write (p : Text) : SharedStringStore :=
  let room := writerSize - s.buffer.length
  if p.length ≤ room then { s with buffer := s.buffer ++ p }
  else if s.buffer = [] then { s with file := s.file.write p }
  else
    let full := { s with buffer := s.buffer ++ p.take room }.flush
    if (p.drop room).length ≤ writerSize then { full with buffer := p.drop room }
    else { full with file := full.file.write (p.drop room) }

/-- `Seek` of the file. -/
def seekTo (position : ℕ) : SharedStringStore :=
  { s with file := { s.file with position := position } }

def seekEnd : SharedStringStore := s.seekTo s.file.content.length

/-- What `Add` does behind its checks. -/
def append (value : Text) : SharedStringStore :=
  let s := { s with offsets := s.offsets ++ [s.size] }
  let s := (s.write (uint32Bytes value.length)).write value
  { s with size := s.size + 4 + value.length }

def add (value : Text) : Except SharedStringError Unit × SharedStringStore :=
  let s := s.flush.seekEnd
  if maxXLSXSharedStrings ≤ s.offsets.length then (.error (.countLimit maxXLSXSharedStrings), s)
  else if maxImportCellBytes < value.length then (.error (.valueLimit maxImportCellBytes), s)
  else (.ok (), s.append value)

/-- The bytes that are read from the position on, if there are as many. -/
def read (n : ℕ) : Option Text × SharedStringStore :=
  let found := (s.file.content.drop s.file.position).take n
  (if found.length = n then some found else none, s.seekTo (s.file.position + found.length))

def get (index : ℤ) : Except SharedStringError Text × SharedStringStore :=
  if index < 0 ∨ s.offsets.length ≤ index then (.error (.outOfRange index), s)
  else
    let s := s.flush.seekTo (s.offsets.getD index.toNat 0)
    match s.read 4 with
    | (none, s) => (.error .eof, s)
    | (some length, s) =>
      if maxImportCellBytes < uint32Of length then (.error (.valueLimit maxImportCellBytes), s)
      else
        match s.read (uint32Of length) with
        | (none, s) => (.error .eof, s)
        | (some value, s) => (.ok value, s)

end SharedStringStore

/-! ### The resolver -/

/-- What `Token` of the XML decoder returns; of an element its local name is read. -/
inductive Token where
  | startElement (name : Text)
  | endElement (name : Text)
  | charData (t : Text)
  | other
  deriving DecidableEq

mutual

/-- `readXLSXSharedStringItem`, and the tokens behind what it has read. -/
def readXLSXSharedStringItem (depth : ℕ) (builder : Text) :
    List Token → Except ItemError Text × List Token
  | [] => (.error .eof, [])
  | .startElement name :: tokens =>
    if name = bytes "si" then readXLSXSharedStringItem (depth + 1) builder tokens
    else if name = bytes "t" then
      readXMLTextNodeLimited depth builder (maxImportCellBytes - builder.length) [] tokens
    else readXLSXSharedStringItem depth builder tokens
  | .endElement name :: tokens =>
    if name = bytes "si" then
      if depth ≤ 1 then (.ok builder, tokens)
      else readXLSXSharedStringItem (depth - 1) builder tokens
    else readXLSXSharedStringItem depth builder tokens
  | _ :: tokens => readXLSXSharedStringItem depth builder tokens

/-- `readXMLTextNodeLimited`, behind which the item is read on. -/
def readXMLTextNodeLimited (depth : ℕ) (builder : Text) (maxBytes : ℕ) (node : Text) :
    List Token → Except ItemError Text × List Token
  | [] => (.error .eof, [])
  | .charData t :: tokens =>
    if maxBytes < node.length + t.length then (.error (.textLimit maxBytes), tokens)
    else readXMLTextNodeLimited depth builder maxBytes (node ++ t) tokens
  | .endElement name :: tokens =>
    if name = bytes "t" then readXLSXSharedStringItem depth (builder ++ node) tokens
    else readXMLTextNodeLimited depth builder maxBytes node tokens
  | _ :: tokens => readXMLTextNodeLimited depth builder maxBytes node tokens

end

/-- The tokens that the decoder has not returned yet. -/
structure SharedStringResolver where
  decoder : List Token
  store : SharedStringStore
  exhausted : Bool

def loadXLSXSharedStrings (tokens : List Token) : SharedStringResolver :=
  ⟨tokens, newXLSXSharedStringStore, false⟩

/-- The tokens behind the next start of an item. -/
def nextItem : List Token → Option (List Token)
  | [] => none
  | .startElement name :: tokens =>
    if name = bytes "si" then some tokens else nextItem tokens
  | _ :: tokens => nextItem tokens

namespace SharedStringResolver

variable (r : SharedStringResolver)

def parseNext : Except SharedStringError Bool × SharedStringResolver :=
  match nextItem r.decoder with
  | none => (.ok false, { r with decoder := [], exhausted := true })
  | some tokens =>
    match readXLSXSharedStringItem 1 [] tokens with
    | (.error e, tokens) => (.error (.item e), { r with decoder := tokens })
    | (.ok value, tokens) =>
      match r.store.add value with
      | (.error e, store) => (.error e, { r with decoder := tokens, store := store })
      | (.ok (), store) => (.ok true, { r with decoder := tokens, store := store })

/-- The loop of `Get`: every turn but the last adds an item. -/
def parseTo (index : ℕ) :
    ℕ → SharedStringResolver → Except SharedStringError Unit × SharedStringResolver
  | 0, r => (.ok (), r)
  | turns + 1, r =>
    if r.store.offsets.length ≤ index ∧ ¬ r.exhausted then
      match r.parseNext with
      | (.error e, r) => (.error e, r)
      | (.ok false, r) => (.ok (), r)
      | (.ok true, r) => parseTo index turns r
    else (.ok (), r)

def get (index : ℤ) : Except SharedStringError Text × SharedStringResolver :=
  if index < 0 then (.error (.outOfRange index), r)
  else
    match r.parseTo index.toNat (index.toNat + 1) with
    | (.error e, r) => (.error e, r)
    | (.ok (), r) => ((r.store.get index).1, { r with store := (r.store.get index).2 })

end SharedStringResolver

/-! ### The store holds a list -/

def record (t : Text) : Text := uint32Bytes t.length ++ t

def records (texts : List Text) : Text := texts.flatMap record

theorem records_split {texts : List Text} {index : ℕ} {t : Text} (h : texts[index]? = some t) :
    records texts = records (texts.take index) ++
      (uint32Bytes t.length ++ (t ++ records (texts.drop (index + 1)))) := by
  obtain ⟨hlt, hat⟩ := List.getElem?_eq_some_iff.mp h
  conv_lhs => rw [← take_append_drop index texts, drop_eq_getElem_cons hlt, hat]
  simp [records, record]

theorem uint32Of_uint32Bytes {n : ℕ} (h : n < 2 ^ 32) : uint32Of (uint32Bytes n) = n := by
  simp only [uint32Bytes, uint32Of, UInt8.toNat_ofNat']
  omega

namespace SharedStringStore

variable {s : SharedStringStore} {texts : List Text}

/-- What has been written, whether it is held back or not. -/
def written (s : SharedStringStore) : Text := s.file.content ++ s.buffer

def AtEnd (s : SharedStringStore) : Prop := s.file.position = s.file.content.length

/-- The store of a list of texts: their records, at the offsets, are what has been written, and
what is held back belongs at the position. -/
structure Holds (texts : List Text) (s : SharedStringStore) : Prop where
  written : s.written = records texts
  atEnd : s.buffer ≠ [] → s.AtEnd
  offsets : s.offsets = (range texts.length).map fun j => (records (texts.take j)).length
  size : s.size = (records texts).length
  short : ∀ t ∈ texts, t.length ≤ maxImportCellBytes

theorem write_atEnd {f : SeekFile} (h : f.position = f.content.length) (p : Text) :
    f.write p = ⟨f.content ++ p, (f.content ++ p).length⟩ := by
  simp [SeekFile.write, h, drop_eq_nil_of_le]

theorem flush_spec (h : s.buffer ≠ [] → s.AtEnd) : s.flush.file.content = s.written ∧
    s.flush.buffer = [] ∧ s.flush.offsets = s.offsets ∧ s.flush.size = s.size ∧
      (s.AtEnd → s.flush.AtEnd) := by
  unfold flush written
  by_cases hbuffer : s.buffer = []
  · simp [hbuffer]
  · rw [if_neg hbuffer, write_atEnd (h hbuffer)]
    exact ⟨rfl, rfl, rfl, rfl, fun _ => rfl⟩

/-- A write behind everything that has been written. -/
theorem write_spec (h : s.AtEnd) (p : Text) : (s.write p).written = s.written ++ p ∧
    (s.write p).AtEnd ∧ (s.write p).offsets = s.offsets ∧ (s.write p).size = s.size := by
  unfold write
  dsimp only
  split
  · exact ⟨(append_assoc _ _ _).symm, h, rfl, rfl⟩
  · split
    · rename_i hbuffer
      rw [write_atEnd h]
      exact ⟨by simp [written, hbuffer], rfl, rfl, rfl⟩
    · obtain ⟨hcontent, hbuffer, hoffsets, hsize, hend⟩ := flush_spec
        (s := { s with buffer := s.buffer ++ p.take (writerSize - s.buffer.length) }) fun _ => h
      have hend := hend h
      split
      · exact ⟨by simp [written, hcontent], hend, hoffsets, hsize⟩
      · rw [write_atEnd hend]
        exact ⟨by simp [written, hcontent, hbuffer], rfl, hoffsets, hsize⟩

/-- A seek with nothing held back leaves the list as it is. -/
theorem Holds.seek (h : Holds texts s) (position : ℕ) :
    Holds texts (s.flush.seekTo position) := by
  obtain ⟨hcontent, hbuffer, hoffsets, hsize, -⟩ := flush_spec h.atEnd
  refine ⟨?_, fun hne => absurd hbuffer hne, hoffsets.trans h.offsets, hsize.trans h.size, h.short⟩
  rw [← h.written]
  simp [SharedStringStore.written, seekTo, hbuffer, hcontent]

theorem Holds.length_offsets (h : Holds texts s) : s.offsets.length = texts.length := by
  rw [h.offsets, length_map, length_range]

theorem Holds.append (h : Holds texts s) (hend : s.AtEnd) {value : Text}
    (hshort : value.length ≤ maxImportCellBytes) : Holds (texts ++ [value]) (s.append value) := by
  obtain ⟨hwritten, hend, hoffsets, hsize⟩ := write_spec
    (s := { s with offsets := s.offsets ++ [s.size] }) hend (uint32Bytes value.length)
  obtain ⟨hwritten', hend', hoffsets', hsize'⟩ := write_spec hend value
  have hrecords : records (texts ++ [value]) =
      records texts ++ uint32Bytes value.length ++ value := by
    simp [records, record]
  constructor
  · rw [hrecords, ← h.written]
    exact hwritten'.trans (congrArg (· ++ value) hwritten)
  · exact fun _ => hend'
  · refine (hoffsets'.trans hoffsets).trans ?_
    show s.offsets ++ [s.size] = _
    rw [h.size, h.offsets, length_append, length_singleton, range_succ, map_append, map_singleton,
      take_left]
    congr 1
    refine map_congr_left fun j hj => ?_
    rw [take_append_of_le_length (mem_range.mp hj).le]
  · rw [hrecords, length_append, length_append, ← h.size]
    exact congrArg (· + 4 + value.length) (hsize'.trans hsize)
  · exact forall_mem_append.mpr ⟨h.short, forall_mem_singleton.mpr hshort⟩

/-- A value is appended, unless it passes a limit. -/
theorem add_cases (h : Holds texts s) (value : Text) :
    (∃ s', s.add value = (.ok (), s') ∧ texts.length < maxXLSXSharedStrings ∧
      Holds (texts ++ [value]) s') ∨
      ∃ e s', s.add value = (.error e, s') ∧ (∀ index, e ≠ .outOfRange index) ∧
        (maxXLSXSharedStrings ≤ texts.length ∨ maxImportCellBytes < value.length) := by
  have hseek : Holds texts s.flush.seekEnd := h.seek _
  unfold add
  dsimp only
  rw [hseek.length_offsets]
  split
  · exact .inr ⟨_, _, rfl, by simp, by omega⟩
  · split
    · exact .inr ⟨_, _, rfl, by simp, by omega⟩
    · exact .inl ⟨_, rfl, by omega, hseek.append rfl (by omega)⟩

theorem read_spec {before w behind : Text} (hcontent : s.file.content = before ++ (w ++ behind))
    (hposition : s.file.position = before.length) :
    s.read w.length = (some w, s.seekTo (s.file.position + w.length)) := by
  unfold read
  rw [hcontent, hposition, drop_left, take_left]
  simp

/-- **The store answers as the list does**, and stays its store. -/
theorem get_spec (h : Holds texts s) (index : ℕ) :
    (s.get index).1 = (match texts[index]? with
      | some t => .ok t
      | none => .error (.outOfRange index)) ∧ Holds texts (s.get index).2 := by
  unfold get
  cases ht : texts[index]? with
  | none =>
    have hle : texts.length ≤ index := List.getElem?_eq_none_iff.mp ht
    rw [if_pos (by rw [h.length_offsets]; omega)]
    exact ⟨rfl, h⟩
  | some t =>
    have hlt : index < texts.length := (List.getElem?_eq_some_iff.mp ht).1
    have hshort := h.short t (mem_of_getElem? ht)
    have hlength : uint32Of (uint32Bytes t.length) = t.length :=
      uint32Of_uint32Bytes (by unfold maxImportCellBytes at hshort; omega)
    have hcontent : s.flush.file.content = records (texts.take index) ++
        (uint32Bytes t.length ++ (t ++ records (texts.drop (index + 1)))) :=
      (flush_spec h.atEnd).1.trans (h.written.trans (records_split ht))
    have hoffset : s.offsets.getD (index : ℤ).toNat 0 = (records (texts.take index)).length := by
      rw [h.offsets]
      simp [hlt]
    let start := (records (texts.take index)).length
    have hread : (s.flush.seekTo start).read 4 = (some (uint32Bytes t.length),
        (s.flush.seekTo start).seekTo (start + 4)) :=
      read_spec (s := s.flush.seekTo start) hcontent rfl
    have hread' : ((s.flush.seekTo start).seekTo (start + 4)).read t.length =
        (some t, ((s.flush.seekTo start).seekTo (start + 4)).seekTo (start + 4 + t.length)) :=
      read_spec (s := (s.flush.seekTo start).seekTo (start + 4))
        (hcontent.trans (append_assoc _ _ _).symm) (by rw [length_append]; rfl)
    rw [if_neg (by rw [h.length_offsets]; omega), hoffset]
    dsimp only
    rw [hread]
    dsimp only
    rw [hlength, if_neg (by omega), hread']
    exact ⟨rfl, h.seek _⟩

end SharedStringStore

/-! ### The items of a part -/

/-- What is read of an item, when all are read one after the other. -/
def item : ℕ → List Token → Option (Except ItemError Text)
  | 0, tokens => (nextItem tokens).map fun behind => (readXLSXSharedStringItem 1 [] behind).1
  | index + 1, tokens =>
    (nextItem tokens).bind fun behind => item index (readXLSXSharedStringItem 1 [] behind).2

/-- No item up to the index passes a limit. -/
def Within (tokens : List Token) (index : ℕ) : Prop :=
  ∀ i ≤ index, ∀ result, item i tokens = some result →
    i < maxXLSXSharedStrings ∧ ∃ t : Text, result = .ok t ∧ t.length ≤ maxImportCellBytes

/-- The answer of the list of the items. -/
def answer (tokens : List Token) (index : ℕ) : Except SharedStringError Text :=
  match item index tokens with
  | some (.ok t) => .ok t
  | some (.error e) => .error (.item e)
  | none => .error (.outOfRange index)

theorem item_of_none {tokens : List Token} (h : nextItem tokens = none) (index : ℕ) :
    item index tokens = none := by
  cases index <;> simp [item, h]

/-! ### Runs -/

variable {tokens : List Token} {texts : List Text} {r : SharedStringResolver}

/-- The first items of the part have been parsed, and are these texts. -/
structure Parsed (tokens : List Token) (texts : List Text) (r : SharedStringResolver) : Prop where
  parsed : ∀ index t, texts[index]? = some t → item index tokens = some (.ok t)
  behind : ∀ index, item (texts.length + index) tokens = item index r.decoder
  store : r.store.Holds texts
  count : texts.length ≤ maxXLSXSharedStrings
  done : r.exhausted = true → nextItem r.decoder = none

/-- What has been parsed answers for the index. -/
theorem Parsed.item_eq (h : Parsed tokens texts r) {index : ℕ}
    (hall : index < texts.length ∨ nextItem r.decoder = none) :
    item index tokens = (texts[index]?).map .ok := by
  by_cases hlt : index < texts.length
  · rw [List.getElem?_eq_getElem hlt]
    exact h.parsed index _ (List.getElem?_eq_getElem hlt)
  · obtain ⟨rest, rfl⟩ := Nat.exists_eq_add_of_le (Nat.le_of_not_lt hlt)
    rw [h.behind, item_of_none (hall.resolve_left hlt), List.getElem?_eq_none (by omega)]
    rfl

theorem Parsed.within (h : Parsed tokens texts r) {index : ℕ}
    (hall : index < texts.length ∨ nextItem r.decoder = none) : Within tokens index := by
  intro i hi result hresult
  rw [h.item_eq (hall.imp_left fun hlt => by omega)] at hresult
  obtain ⟨t, ht, rfl⟩ := Option.map_eq_some_iff.mp hresult
  have hlt := (List.getElem?_eq_some_iff.mp ht).1
  exact ⟨Nat.lt_of_lt_of_le hlt h.count, t, rfl, h.store.short t (mem_of_getElem? ht)⟩

/-- There is no next item, or it is added to the store, or it is refused. -/
theorem parseNext_spec (h : Parsed tokens texts r) :
    (∃ r', r.parseNext = (.ok false, r') ∧ Parsed tokens texts r' ∧ nextItem r'.decoder = none) ∨
      (∃ t r', r.parseNext = (.ok true, r') ∧ Parsed tokens (texts ++ [t]) r') ∨
      ∃ e r', r.parseNext = (.error e, r') ∧ (∀ index, e ≠ .outOfRange index) ∧
        ¬ Within tokens texts.length := by
  have hbehind := h.behind
  unfold SharedStringResolver.parseNext
  cases hnext : nextItem r.decoder with
  | none =>
    refine .inl ⟨_, rfl, ⟨h.parsed, fun index => ?_, h.store, h.count, fun _ => rfl⟩, rfl⟩
    rw [hbehind, item_of_none hnext, item_of_none rfl]
  | some behind =>
    have hopen : r.exhausted ≠ true := by
      intro hdone
      rw [h.done hdone] at hnext
      cases hnext
    have hitem : item texts.length tokens = some (readXLSXSharedStringItem 1 [] behind).1 :=
      (hbehind 0).trans (by rw [item, hnext, Option.map_some])
    have hsucc : ∀ index, item (texts.length + (index + 1)) tokens =
        item index (readXLSXSharedStringItem 1 [] behind).2 := fun index =>
      (hbehind (index + 1)).trans (by rw [item, hnext, Option.bind_some])
    dsimp only
    generalize readXLSXSharedStringItem 1 [] behind = read at hitem hsucc ⊢
    obtain ⟨result, rest⟩ := read
    cases result with
    | error e =>
      refine .inr (.inr ⟨.item e, _, rfl, by simp, fun hwithin => ?_⟩)
      obtain ⟨-, t, ht, -⟩ := hwithin _ le_rfl _ hitem
      cases ht
    | ok value =>
      dsimp only
      rcases SharedStringStore.add_cases h.store value with
        ⟨store, hadd, hcount, hholds⟩ | ⟨e, store, hadd, he, hpast⟩
      · rw [hadd]
        refine .inr (.inl ⟨value, _, rfl, ?_, fun index => ?_, hholds, ?_,
          fun hdone => absurd hdone hopen⟩)
        · intro index t ht
          rcases Nat.lt_or_ge index texts.length with hlt | hge
          · rw [getElem?_append_left hlt] at ht
            exact h.parsed index t ht
          · rw [getElem?_append_right hge, getElem?_singleton] at ht
            split at ht
            · cases ht
              rwa [show index = texts.length by omega]
            · cases ht
        · rw [length_append, length_singleton, ← hsucc, Nat.add_assoc, Nat.add_comm 1]
        · rw [length_append, length_singleton]
          exact hcount
      · rw [hadd]
        refine .inr (.inr ⟨e, _, rfl, he, fun hwithin => ?_⟩)
        obtain ⟨hcount, t, ht, hshort⟩ := hwithin _ le_rfl _ hitem
        cases ht
        omega

/-- The loop ends behind the index or at the end of the part, unless an item is refused. -/
theorem parseTo_spec (h : Parsed tokens texts r) (index turns : ℕ)
    (hturns : index < texts.length + turns) :
    (∃ more r', r.parseTo index turns = (.ok (), r') ∧ Parsed tokens (texts ++ more) r' ∧
      (index < (texts ++ more).length ∨ nextItem r'.decoder = none)) ∨
      ∃ e r', r.parseTo index turns = (.error e, r') ∧ (∀ index, e ≠ .outOfRange index) ∧
        ¬ Within tokens index := by
  induction turns generalizing texts r with
  | zero => exact .inl ⟨[], r, rfl, by rwa [append_nil], .inl (by simpa using hturns)⟩
  | succ turns ih =>
    unfold SharedStringResolver.parseTo
    rw [h.store.length_offsets]
    by_cases hmore : texts.length ≤ index ∧ ¬ r.exhausted = true
    · rw [if_pos hmore]
      rcases parseNext_spec h with
        ⟨r', hnext, h', hall⟩ | ⟨t, r', hnext, h'⟩ | ⟨e, r', hnext, he, hpast⟩
      · rw [hnext]
        exact .inl ⟨[], r', rfl, by rwa [append_nil], .inr hall⟩
      · rw [hnext]
        rcases ih h' (by simp; omega) with ⟨more, r'', hrun, h'', hend⟩ | hfails
        · rw [append_assoc] at h'' hend
          exact .inl ⟨[t] ++ more, r'', hrun, h'', hend⟩
        · exact .inr hfails
      · rw [hnext]
        exact .inr ⟨e, r', rfl, he, fun hwithin => hpast fun i hi => hwithin i (by omega)⟩
    · rw [if_neg hmore]
      refine .inl ⟨[], r, rfl, by rwa [append_nil], ?_⟩
      rw [append_nil]
      by_cases hlt : texts.length ≤ index
      · exact .inr (h.done (by simpa [hlt] using hmore))
      · exact .inl (by omega)

theorem get_parsed (h : Parsed tokens texts r) (index : ℕ) :
    (Within tokens index ∧ (r.get index).1 = answer tokens index ∧
      ∃ more, Parsed tokens (texts ++ more) (r.get index).2) ∨
      ¬ Within tokens index ∧
        ∃ e, (∀ index, e ≠ .outOfRange index) ∧ (r.get index).1 = .error e := by
  unfold SharedStringResolver.get
  rw [if_neg (by omega), Int.toNat_natCast]
  rcases parseTo_spec h index (index + 1) (by omega) with
    ⟨more, r', hrun, h', hend⟩ | ⟨e, r', hrun, he, hpast⟩
  · rw [hrun]
    obtain ⟨hanswer, hholds⟩ := SharedStringStore.get_spec h'.store index
    refine .inl ⟨h'.within hend, hanswer.trans ?_, more, h'.parsed, h'.behind, hholds, h'.count,
      h'.done⟩
    unfold answer
    rw [h'.item_eq hend]
    cases (texts ++ more)[index]? <;> rfl
  · rw [hrun]
    exact .inr ⟨hpast, e, he, rfl⟩

theorem get_negative (r : SharedStringResolver) {index : ℤ} (h : index < 0) :
    r.get index = (.error (.outOfRange index), r) := by
  unfold SharedStringResolver.get
  rw [if_pos h]

theorem parsed_load (tokens : List Token) : Parsed tokens [] (loadXLSXSharedStrings tokens) where
  parsed _ _ h := by cases h
  behind index := by rw [length_nil, Nat.zero_add]; rfl
  store := ⟨rfl, fun h => absurd rfl h, rfl, rfl, by simp⟩
  count := Nat.zero_le _
  done h := by cases h

namespace SharedStringResolver

/-- The resolver behind a question. -/
def ask (r : SharedStringResolver) (index : ℤ) : SharedStringResolver := (r.get index).2

/-- Nothing but the index is wrong with the question. -/
def Answers (r : SharedStringResolver) (index : ℤ) : Prop :=
  ∀ e, (r.get index).1 = .error e → e = .outOfRange index

end SharedStringResolver

theorem parsed_ask (h : ∃ texts, Parsed tokens texts r) {index : ℤ} (hindex : r.Answers index) :
    ∃ texts, Parsed tokens texts (r.ask index) := by
  obtain ⟨texts, h⟩ := h
  unfold SharedStringResolver.ask
  by_cases hneg : index < 0
  · rw [get_negative r hneg]
    exact ⟨texts, h⟩
  · obtain ⟨index, rfl⟩ := Int.eq_ofNat_of_zero_le (Int.not_lt.mp hneg)
    rcases get_parsed h index with ⟨-, -, more, h'⟩ | ⟨-, e, he, hfails⟩
    · exact ⟨_, h'⟩
    · exact absurd (hindex e hfails) (he _)

/-- After any questions that have been answered, a question is answered as by the list of the
items, unless one of these up to the index passes a limit.  The store holds the first items in the
file, each at its offset, and a question leaves them there. -/
theorem resolver_answers (tokens : List Token) {questions : List ℤ}
    (hquestions : Machine.Along SharedStringResolver.ask SharedStringResolver.Answers
      (loadXLSXSharedStrings tokens) questions) :
    let r := Machine.run SharedStringResolver.ask (loadXLSXSharedStrings tokens) questions
    (∀ index < 0, r.get index = (.error (.outOfRange index), r)) ∧
      ∃ texts, r.store.Holds texts ∧ ∀ index : ℕ,
        (Within tokens index → (r.get index).1 = answer tokens index ∧
          ∃ more, (r.get index).2.store.Holds (texts ++ more)) ∧
        (¬ Within tokens index → ∃ e, (r.get index).1 = .error e) := by
  intro r
  obtain ⟨texts, h⟩ : ∃ texts, Parsed tokens texts r :=
    Machine.run_induction (P := fun r => ∃ texts, Parsed tokens texts r)
      (fun _ _ hindex h => parsed_ask h hindex) hquestions ⟨[], parsed_load tokens⟩
  refine ⟨fun _ hneg => get_negative r hneg, texts, h.store, fun index => ?_⟩
  rcases get_parsed h index with ⟨hwithin, hanswer, more, h'⟩ | ⟨hpast, e, -, hfails⟩
  · exact ⟨fun _ => ⟨hanswer, more, h'.store⟩, fun hpast => absurd hwithin hpast⟩
  · exact ⟨fun hwithin => absurd hwithin hpast, fun _ => ⟨e, hfails⟩⟩

/-- The tokens of an item with one text. -/
def plainItem (t : Text) : List Token :=
  [.startElement (bytes "si"), .startElement (bytes "t"), .charData t, .endElement (bytes "t"),
    .endElement (bytes "si")]

/-- Two items, of which the second is asked for first. -/
def twoItems : List Token := plainItem (bytes "a") ++ plainItem (bytes "bc")

theorem resolver_answers_two : Machine.Along SharedStringResolver.ask SharedStringResolver.Answers
      (loadXLSXSharedStrings twoItems) [1] ∧
    ∃ texts, ((loadXLSXSharedStrings twoItems).ask 1).store.Holds texts := by
  have hsecond : ((loadXLSXSharedStrings twoItems).get 1).1 = .ok (bytes "bc") := by decide
  have hanswers : Machine.Along SharedStringResolver.ask SharedStringResolver.Answers
      (loadXLSXSharedStrings twoItems) [1] := by
    refine ⟨fun e he => ?_, trivial⟩
    rw [hsecond] at he
    cases he
  exact ⟨hanswers, (resolver_answers twoItems hanswers).2.imp fun _ h => h.1⟩

/-- An item of more than sixteen mebibytes has no answer. -/
theorem resolver_answers_fails : ¬ ∀ (tokens : List Token) (index : ℕ),
    (item index tokens).isSome → ∃ t, ((loadXLSXSharedStrings tokens).get index).1 = .ok t := by
  intro h
  obtain ⟨long, hlong⟩ : ∃ long : Text, maxImportCellBytes < long.length :=
    ⟨replicate (maxImportCellBytes + 1) 0x61, by simp⟩
  have hitem : item 0 (plainItem long) = some (.error (.textLimit maxImportCellBytes)) := by
    have hopen : bytes "t" ≠ bytes "si" := by decide
    simp [item, plainItem, nextItem, readXLSXSharedStringItem, readXMLTextNodeLimited, hopen, hlong]
  obtain ⟨t, ht⟩ := h (plainItem long) 0 (by rw [hitem]; rfl)
  rcases get_parsed (parsed_load (plainItem long)) 0 with ⟨hwithin, -⟩ | ⟨-, e, -, hfails⟩
  · obtain ⟨-, t, ht, -⟩ := hwithin 0 le_rfl _ hitem
    cases ht
  · rw [ht] at hfails
    cases hfails

end GoNavi.Importjob
