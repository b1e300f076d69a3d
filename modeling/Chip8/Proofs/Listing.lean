import Chip8.Proofs.Ranges
import Chip8.Proofs.Text.Hex

/-!
# Listings are read back

A listing is read line by line.  Empty lines separate the blocks, a block begins with
its header, and each of its other lines is an address of three digits and sixteen bytes
of two digits each.  What is read from the listing of some ranges are, for each range,
the rows of sixteen bytes that meet it, with the bytes of the memory in them.

* `read?`: the reader.
* `readRow?_rowText`, `blocksOf_eq`: lines and blocks are read back.
* `rowAddresses_eq`: the rows of a range are those that meet it, in order.
* `listing_reads_back`: what is read from a listing.
-/

namespace Chip8.Listing

open AddressRange (Holds)

/-! ### The reader -/

/-- A line of a listing: the address of a row and the bytes in it. -/
structure Row where
  address : Nat
  cells : List UInt8
  deriving DecidableEq

/-- Reads a line of an address and sixteen cells, with a blank before each cell. -/
def readRow? (line : List Char) : Option Row :=
  match line.splitOn ' ' with
  | [] => none
  | address :: cells =>
    if address.length = 3 ∧ cells.length = 16 ∧ ∀ cell ∈ cells, cell.length = 2 then do
      let address ← Text.hexNumber? address
      let cells ← cells.mapM Text.hexNumber?
      return ⟨address, cells.map UInt8.ofNat⟩
    else none

/-- Reads the lines of a block: the header, and then its rows. -/
def readBlock? : List (List Char) → Option (List Row)
  | [] => none
  | header :: rows => if header = headerLine then rows.mapM readRow? else none

/-- The lines of each block; an empty line separates two blocks, and no text has no blocks. -/
def blocksOf (text : List Char) : List (List (List Char)) :=
  if text = [] then [] else (text.splitOn '\n').splitOn []

def read? (text : List Char) : Option (List (List Row)) :=
  (blocksOf text).mapM readBlock?

/-! ### Rows -/

variable {m : Ram} {r : AddressRange} {ranges : List AddressRange}

/-- The row at an address, as it is in a memory. -/
def rowAt (m : Ram) (address : Nat) : Row :=
  ⟨address, (List.range 16).map fun (c : Nat) => m.byteAt (address + c : Nat)⟩

/-- The words in the line of a row. -/
def words (row : Row) : List (List Char) :=
  Text.hexChars 3 row.address :: row.cells.map fun b => Text.hexChars 2 b.toNat

def rowText (row : Row) : List Char :=
  List.intercalate [' '] (words row)

theorem intercalate_blank (word : List Char) (rest : List (List Char)) :
    List.intercalate [' '] (word :: rest) = word ++ rest.flatMap fun w => ' ' :: w := by
  induction rest generalizing word with
  | nil => simp
  | cons next rest ih =>
    rw [List.flatMap_cons, List.cons_append, ← ih]
    simp [List.intercalate]

theorem rowLine_eq {a : Nat} (hlow : a % 16 = 0) (hhigh : a < addressSpace) :
    rowLine m a = .ok (rowText (rowAt m a)) := by
  have hcells : (List.range rowWidth).mapM (fun (i : Nat) => m.load8 (a + i)) =
      .ok ((List.range rowWidth).map fun (i : Nat) => m.byteAt (a + i : Nat)) := by
    apply mapM_eq_pure
    intro i hi
    have hlt : i < 16 := List.mem_range.mp hi
    rw [addressSpace] at hhigh
    apply Memory.load8_of_covers
    simp only [Memory.Covers, addressSpace]
    omega
  rw [rowLine, hcells, rowText, words, intercalate_blank, List.flatMap_map]
  rfl

/-! ### Lines are read back -/

theorem not_mem_hexChars {c : Char} (hc : Text.digitValue? 16 c = none) (width n : Nat) :
    c ∉ Text.hexChars width n := by
  intro h
  have hsome := Text.isSome_digitValue?_of_mem_hexChars h
  rw [hc] at hsome
  cases hsome

theorem not_mem_of_mem_words {c : Char} (hc : Text.digitValue? 16 c = none) {row : Row}
    {word : List Char} (h : word ∈ words row) : c ∉ word := by
  rcases List.mem_cons.mp h with rfl | h
  · exact not_mem_hexChars hc _ _
  · obtain ⟨b, -, rfl⟩ := List.mem_map.mp h
    exact not_mem_hexChars hc _ _

theorem splitOn_rowText (row : Row) : (rowText row).splitOn ' ' = words row := by
  apply List.splitOn_intercalate
  · intro word h
    exact not_mem_of_mem_words (by decide) h
  · exact List.cons_ne_nil _ _

theorem newline_not_mem_rowText (row : Row) : '\n' ∉ rowText row := by
  rw [rowText, words, intercalate_blank]
  intro h
  rcases List.mem_append.mp h with h | h
  · exact not_mem_hexChars (by decide) _ _ h
  · obtain ⟨word, hword, h⟩ := List.mem_flatMap.mp h
    rcases List.mem_cons.mp h with h | h
    · cases h
    · exact not_mem_of_mem_words (by decide) (List.mem_cons_of_mem _ hword) h

/-- **A line is read back** if the address has three digits at most and there are sixteen
cells. -/
theorem readRow?_rowText {row : Row} (haddress : row.address < addressSpace)
    (hcells : row.cells.length = 16) : readRow? (rowText row) = some row := by
  have hlength : (Text.hexChars 3 row.address).length = 3 :=
    Text.length_hexChars (by decide) haddress
  have hwords : ∀ cell ∈ row.cells.map fun b => Text.hexChars 2 b.toNat, cell.length = 2 := by
    intro cell hcell
    obtain ⟨b, -, rfl⟩ := List.mem_map.mp hcell
    exact Text.length_hexChars (by decide) b.toNat_lt
  have hread : (row.cells.map fun b => Text.hexChars 2 b.toNat).mapM Text.hexNumber? =
      some (row.cells.map UInt8.toNat) := by
    rw [List.mapM_map]
    apply mapM_eq_pure
    intro b _
    exact Text.hexNumber?_hexChars 2 b.toNat
  rw [readRow?, splitOn_rowText, words]
  dsimp only
  rw [if_pos ⟨hlength, by rw [List.length_map, hcells], hwords⟩, Text.hexNumber?_hexChars, hread]
  have hbytes : (row.cells.map UInt8.toNat).map UInt8.ofNat = row.cells := by
    rw [List.map_map]
    exact List.map_id'' (fun b => UInt8.ofNat_toNat) row.cells
  simp only [Option.pure_def, Option.bind_eq_bind, Option.bind_some, hbytes]

/-! ### Blocks are read back -/

/-- The lines of a block, none of them empty. -/
structure IsBlock (lines : List (List Char)) : Prop where
  nonempty : lines ≠ []
  lines : ∀ line ∈ lines, line ≠ [] ∧ '\n' ∉ line

/-- Lines with an empty line between any two blocks are split into these blocks. -/
theorem splitOn_intercalate_blocks {blocks : List (List (List Char))} (hne : blocks ≠ [])
    (h : ∀ lines ∈ blocks, IsBlock lines) :
    ((List.intercalate ['\n', '\n'] (blocks.map fun lines =>
      List.intercalate ['\n'] lines)).splitOn '\n').splitOn [] = blocks := by
  induction blocks with
  | nil => exact absurd rfl hne
  | cons lines rest ih =>
    obtain ⟨hblock, hrest⟩ := List.forall_mem_cons.mp h
    have hlines : (List.intercalate ['\n'] lines).splitOn '\n' = lines :=
      List.splitOn_intercalate '\n' (fun line hline => (hblock.lines line hline).2)
        hblock.nonempty
    have hempty : [] ∉ lines := fun hmem => (hblock.lines [] hmem).1 rfl
    cases rest with
    | nil =>
      rw [List.map_singleton, List.intercalate_singleton, hlines,
        List.splitOn_eq_singleton hempty]
    | cons next rest =>
      have ih := ih (List.cons_ne_nil _ _) hrest
      rw [List.map_cons, List.map_cons, List.intercalate_cons_cons, ← List.map_cons,
        List.append_assoc, List.cons_append, List.cons_append, List.nil_append,
        List.splitOn_append_cons_self, hlines, ← List.nil_append ('\n' :: _),
        List.splitOn_append_cons_self, List.splitOn_nil, List.singleton_append,
        List.splitOn_append_cons_self_of_not_mem hempty, ih]

/-- **The blocks of a text are those that it was made of.** -/
theorem blocksOf_eq {blocks : List (List (List Char))} (h : ∀ lines ∈ blocks, IsBlock lines) :
    blocksOf (List.intercalate ['\n', '\n'] (blocks.map fun lines =>
      List.intercalate ['\n'] lines)) = blocks := by
  by_cases hne : blocks = []
  · subst hne
    rfl
  · have hsplit := splitOn_intercalate_blocks hne h
    rw [blocksOf]
    split
    · next htext =>
      rw [htext] at hsplit
      have hmem : [] ∈ blocks := by
        rw [← hsplit]
        decide
      exact absurd rfl (h [] hmem).nonempty
    · exact hsplit

/-! ### The rows of a range -/

/-- The multiples of sixteen whose rows meet a range, in order. -/
def rowsMeeting (r : AddressRange) : List Nat :=
  ((List.range 256).map fun i => 16 * i).filter fun (a : Nat) => a ≤ r.last ∧ r.first ≤ a + 15

theorem mem_rowsMeeting {a : Nat} :
    a ∈ rowsMeeting r ↔ a % 16 = 0 ∧ a < addressSpace ∧ a ≤ r.last ∧ r.first ≤ a + 15 := by
  simp only [rowsMeeting, List.mem_filter, List.mem_map, List.mem_range, decide_eq_true_eq,
    addressSpace]
  constructor
  · rintro ⟨⟨i, hi, rfl⟩, hlast, hfirst⟩
    omega
  · rintro ⟨hrow, hhigh, hlast, hfirst⟩
    exact ⟨⟨a / 16, by omega, by omega⟩, hlast, hfirst⟩

/-- **The rows in the listing of a range are those that meet it**, each once and in order. -/
theorem rowAddresses_eq (h : r.Within) :
    rowAddresses r = (rowsMeeting r).map fun (a : Nat) => (a : Int) := by
  have hrows : (rowAddresses r).Pairwise (· < ·) := by
    simp only [rowAddresses, rowWidth, List.pairwise_map]
    apply List.pairwise_lt_range.imp
    intro i j hij
    omega
  have hmeeting : ((rowsMeeting r).map fun (a : Nat) => (a : Int)).Pairwise (· < ·) := by
    rw [List.pairwise_map, rowsMeeting]
    apply List.Pairwise.filter
    rw [List.pairwise_map]
    apply List.pairwise_lt_range.imp
    intro i j hij
    omega
  apply hrows.eq_of_mem_iff hmeeting
  intro a
  obtain ⟨hfirst, hle, hlast⟩ := h
  simp only [topAddress] at hlast
  simp only [List.mem_map, mem_rowsMeeting, rowAddresses, rowWidth, List.mem_range, addressSpace]
  constructor
  · rintro ⟨i, hi, rfl⟩
    exact ⟨(r.first - r.first % 16 + i * 16).toNat, by omega, by omega⟩
  · rintro ⟨b, ⟨hrow, hhigh, hblast, hbfirst⟩, rfl⟩
    exact ⟨((b - (r.first - r.first % 16)) / 16).toNat, by omega, by omega⟩

/-- The rows that the listing of a range shows. -/
def rowsOf (m : Ram) (r : AddressRange) : List Row :=
  (rowsMeeting r).map (rowAt m)

theorem rowLine_of_mem {a : Nat} (ha : a ∈ rowsMeeting r) :
    rowLine m a = .ok (rowText (rowAt m a)) := by
  obtain ⟨hrow, hhigh, -⟩ := mem_rowsMeeting.mp ha
  exact rowLine_eq hrow hhigh

theorem blockLines_eq (h : r.Within) :
    blockLines m r = .ok (headerLine :: (rowsOf m r).map rowText) := by
  have hlines : (rowsMeeting r).mapM (rowLine m ∘ fun (a : Nat) => (a : Int)) =
      .ok ((rowsMeeting r).map (rowText ∘ rowAt m)) := by
    apply mapM_eq_pure
    intro a ha
    rw [Function.comp_apply, Function.comp_apply, rowLine_of_mem ha]
    rfl
  have hrows : (rowAddresses r).mapM (rowLine m) = .ok ((rowsOf m r).map rowText) := by
    rw [rowAddresses_eq h, List.mapM_map, hlines, rowsOf, List.map_map]
  rw [blockLines, hrows]
  rfl

theorem rowText_ne_nil (row : Row) : rowText row ≠ [] := by
  rw [rowText, words, intercalate_blank, Text.hexChars_natCast, Text.zeroFill]
  intro hnil
  have hdigits := (List.append_eq_nil_iff.mp (List.append_eq_nil_iff.mp hnil).1).2
  exact Text.hexDigits_ne_nil _ hdigits

theorem isBlock_lines (rows : List Row) : IsBlock (headerLine :: rows.map rowText) := by
  constructor
  · exact List.cons_ne_nil _ _
  · intro line hline
    rcases List.mem_cons.mp hline with rfl | hline
    · decide
    · obtain ⟨row, -, rfl⟩ := List.mem_map.mp hline
      exact ⟨rowText_ne_nil row, newline_not_mem_rowText row⟩

/-- **A block is read back.** -/
theorem readBlock?_lines (m : Ram) (r : AddressRange) :
    readBlock? (headerLine :: (rowsOf m r).map rowText) = some (rowsOf m r) := by
  have hrows : (rowsOf m r).mapM (readRow? ∘ rowText) = some ((rowsOf m r).map id) := by
    apply mapM_eq_pure
    intro row hrow
    rw [Function.comp_apply]
    obtain ⟨a, ha, rfl⟩ := List.mem_map.mp hrow
    obtain ⟨-, hhigh, -⟩ := mem_rowsMeeting.mp ha
    exact readRow?_rowText hhigh (by simp [rowAt])
  rw [readBlock?, if_pos rfl, List.mapM_map, hrows, List.map_id]

/-! ### Listings are read back -/

def textOf (m : Ram) (ranges : List AddressRange) : List Char :=
  List.intercalate ['\n', '\n'] (ranges.map fun r =>
    List.intercalate ['\n'] (headerLine :: (rowsOf m r).map rowText))

theorem chars_eq (h : ∀ r ∈ ranges, r.Within) : chars m ranges = .ok (textOf m ranges) := by
  have hblocks : ranges.mapM (blockLines m) =
      .ok (ranges.map fun r => headerLine :: (rowsOf m r).map rowText) := by
    apply mapM_eq_pure
    intro r hr
    exact blockLines_eq (h r hr)
  rw [chars, hblocks, textOf]
  show Except.ok _ = _
  rw [List.map_map]
  rfl

theorem read?_textOf (m : Ram) (ranges : List AddressRange) :
    read? (textOf m ranges) = some (ranges.map (rowsOf m)) := by
  have hblocks : blocksOf (textOf m ranges) =
      ranges.map fun r => headerLine :: (rowsOf m r).map rowText := by
    have hlines : ∀ lines ∈ ranges.map (fun r => headerLine :: (rowsOf m r).map rowText),
        IsBlock lines := by
      intro lines hmem
      obtain ⟨r, -, rfl⟩ := List.mem_map.mp hmem
      exact isBlock_lines _
    rw [textOf, ← blocksOf_eq hlines, List.map_map]
    rfl
  rw [read?, hblocks, List.mapM_map]
  apply mapM_eq_pure
  intro r _
  exact readBlock?_lines m r

theorem mem_rowsOf_of_holds (h : r.Within) {a : Int} (ha : r.Holds a) :
    ∃ row ∈ rowsOf m r, ∃ c : Nat, a = row.address + c ∧ row.cells[c]? = some (m.byteAt a) := by
  obtain ⟨hlow, -, hhigh⟩ := h
  obtain ⟨hfirst, hlast⟩ := ha
  simp only [topAddress] at hhigh
  have hmem : (a - a % 16).toNat ∈ rowsMeeting r := by
    rw [mem_rowsMeeting, addressSpace]
    omega
  have haddress : a = ((a - a % 16).toNat + (a % 16).toNat : Nat) := by omega
  refine ⟨_, List.mem_map_of_mem hmem, (a % 16).toNat, by simpa [rowAt] using haddress, ?_⟩
  have hcell : (a % 16).toNat < 16 := by omega
  simp only [rowAt]
  rw [List.getElem?_map, List.getElem?_range hcell, Option.map_some, ← haddress]

/-- **Listings are read back.**  The listing of ranges inside the address space is never refused.
What is read from it are, for each range, the rows of sixteen bytes that meet it, each once and in
ascending order, with the bytes of the memory; so each address of each range is there with its
byte. -/
theorem listing_reads_back (m : Ram) (h : ∀ r ∈ ranges, r.Within) :
    ∃ text blocks, chars m ranges = .ok text ∧ read? text = some blocks ∧
      blocks = ranges.map (fun r => (rowsMeeting r).map (rowAt m)) ∧
      (∀ (i : Nat) (r : AddressRange), ranges[i]? = some r → ∀ a, r.Holds a →
        ∃ block row, blocks[i]? = some block ∧ row ∈ block ∧
          ∃ c : Nat, a = row.address + c ∧ row.cells[c]? = some (m.byteAt a)) := by
  refine ⟨textOf m ranges, ranges.map (rowsOf m), chars_eq h, read?_textOf m ranges, rfl, ?_⟩
  intro i r hr a ha
  obtain ⟨row, hrow, c, hcell⟩ :=
    mem_rowsOf_of_holds (m := m) (h r (List.mem_of_getElem? hr)) ha
  exact ⟨rowsOf m r, row, by rw [List.getElem?_map, hr]; rfl, hrow, c, hcell⟩

/-- Three ranges that are not merged: one that begins and ends within a row, the last address, and
a range that the first one holds. -/
theorem listing_reads_back_of_three :
    ∃ text blocks, chars (Memory.zero 0 addressSpace)
        [⟨0x018, 0x025⟩, ⟨0xFFF, 0xFFF⟩, ⟨0x020, 0x020⟩] = .ok text ∧
      read? text = some blocks ∧
      blocks.map (fun rows => rows.map Row.address) = [[0x010, 0x020], [0xFF0], [0x020]] := by
  have hw : ∀ r ∈ ([⟨0x018, 0x025⟩, ⟨0xFFF, 0xFFF⟩, ⟨0x020, 0x020⟩] : List AddressRange),
      r.Within := by
    unfold AddressRange.Within
    decide
  obtain ⟨text, blocks, hchars, hread, hblocks, -⟩ :=
    listing_reads_back (Memory.zero 0 addressSpace) hw
  refine ⟨text, blocks, hchars, hread, ?_⟩
  rw [hblocks]
  decide +kernel

end Chip8.Listing
