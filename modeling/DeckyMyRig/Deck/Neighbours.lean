import DeckyMyRig.Deck.Discovery
import DeckyMyRig.Deck.ValidationLaws

/-!
# The neighbour table

What `find_mac` finds in a text of the format of `/proc/net/arp`: the hardware
address of the first row with the address in any column. The flags are not
looked at, so an entry that is not resolved counts like any other.
-/

namespace DeckyMyRig.Deck

open Octets Texts

-- ---------------------------------------------------------------------------
-- The format
-- ---------------------------------------------------------------------------

def IsColumn (column : Text) : Prop := column ≠ [] ∧ ∀ c ∈ column, isSpace c = false

def IsGap (gap : Text) : Prop := ∀ c ∈ gap, c = ' ' ∨ c = '\t'

inductive Columns : List Text → Text → Prop
  | last (hcolumn : IsColumn column) (hgap : IsGap gap) : Columns [column] (column ++ gap)
  | cons (hcolumn : IsColumn column) (hgap : IsGap gap) (hne : gap ≠ [])
      (hrest : Columns columns line) :
    Columns (column :: columns) (column ++ (gap ++ line))

def isHexNumber : Text → Bool
  | '0' :: 'x' :: digits => !digits.isEmpty && digits.all isHex
  | _ => false

structure Neighbour where
  ip : Text
  hwType : Text
  flags : Text
  /-- Six octets, which is what `normalize_mac` takes. -/
  address : Text
  mask : Text
  device : Text
  ipv4 : isIPv4 ip = true
  hexType : isHexNumber hwType = true
  hexFlags : isHexNumber flags = true
  hexAddress : isMac address = true

def Neighbour.columns (row : Neighbour) : List Text :=
  [row.ip, row.hwType, row.flags, row.address, row.mask, row.device]

def hexNumber (digits : Text) : Nat := digits.foldl (fun n c => 16 * n + (hexValue c).getD 0) 0

/-- `ATF_COM`, the bit 0x2 of the flags. -/
def Neighbour.complete (row : Neighbour) : Bool := (hexNumber (row.flags.drop 2)).testBit 1

def tableHeader : List Text :=
  ["IP".toList, "address".toList, "HW".toList, "type".toList, "Flags".toList, "HW".toList,
    "address".toList, "Mask".toList, "Device".toList]

inductive Table (rows : List Neighbour) : Text → Prop
  | mk (hheader : Columns tableHeader header)
    (hlines : List.Forall₂ (fun (row : Neighbour) line => Columns row.columns line) rows lines)
    (hlast : last = [] ∨ last = ['\n']) : Table rows (['\n'].intercalate (header :: lines) ++ last)

def macChar (c : Char) : Char := if c = '-' then ':' else c.toUpper

def Neighbour.mac (row : Neighbour) : Text := row.address.map macChar

def Neighbour.resolves (ip : Text) (row : Neighbour) : Bool := row.ip = ip && row.complete

/-- The row has `ip` in some column that can have it. -/
def Neighbour.mentions (ip : Text) (row : Neighbour) : Bool :=
  row.ip = ip || row.mask = ip || row.device = ip

def resolvedMac (ip : Text) (rows : List Neighbour) : Text :=
  ((rows.find? (·.resolves ip)).map (·.mac)).getD []

-- ---------------------------------------------------------------------------
-- Lines and columns
-- ---------------------------------------------------------------------------

theorem no_break_of_isSpace {c : Char} (h : isSpace c = false) :
    c ≠ '\r' ∧ isLineBreak c = false := by
  constructor
  · rintro rfl
    cases h
  · simp only [isSpace, isLineBreak, Bool.or_eq_false_iff, Bool.and_eq_false_iff,
      decide_eq_false_iff_not] at h ⊢
    omega

theorem IsGap.isSpace (h : IsGap gap) : ∀ c ∈ gap, Deck.isSpace c = true := by
  intro c hc
  rcases h c hc with rfl | rfl <;> rfl

theorem Columns.words_eq (h : Columns columns line) : words isSpace line = columns := by
  induction h with
  | @last column gap hcolumn hgap =>
    cases gap with
    | nil =>
      rw [List.append_nil]
      exact words_singleton hcolumn.1 hcolumn.2
    | cons c gap =>
      have hspace := hgap.isSpace
      rw [words_append_cons hcolumn.1 hcolumn.2 (hspace c List.mem_cons_self),
        ← List.append_nil gap, words_append_left fun c hc => hspace c (List.mem_cons_of_mem _ hc)]
      rfl
  | @cons column gap columns line hcolumn hgap hne _ ih =>
    cases gap with
    | nil => exact absurd rfl hne
    | cons c gap =>
      have hspace := hgap.isSpace
      rw [List.cons_append, words_append_cons hcolumn.1 hcolumn.2 (hspace c List.mem_cons_self),
        words_append_left (fun c hc => hspace c (List.mem_cons_of_mem _ hc)), ih]

theorem Columns.no_break (h : Columns columns line) :
    ∀ c ∈ line, c ≠ '\r' ∧ isLineBreak c = false := by
  induction h with
  | last hcolumn hgap =>
    intro c hc
    rcases List.mem_append.mp hc with hc | hc
    · exact no_break_of_isSpace (hcolumn.2 c hc)
    · rcases hgap c hc with rfl | rfl <;> decide
  | cons hcolumn hgap _ _ ih =>
    intro c hc
    rcases List.mem_append.mp hc with hc | hc
    · exact no_break_of_isSpace (hcolumn.2 c hc)
    · rcases List.mem_append.mp hc with hc | hc
      · rcases hgap c hc with rfl | rfl <;> decide
      · exact ih c hc

theorem Columns.ne_nil (h : Columns columns line) : line ≠ [] := by
  cases h with
  | last hcolumn | cons hcolumn => simp [hcolumn.1]

-- ---------------------------------------------------------------------------
-- The pattern
-- ---------------------------------------------------------------------------

section
variable {W : Char → Bool}

theorem isMac_take (h : isMac (rest.take 17) = true) :
    ∃ high low separator tail, rest = high :: low :: separator :: tail ∧
      isHex high = true ∧ isHex low = true ∧
      (separator = ':' ∨ separator = '-') := by
  rcases rest with _ | ⟨high, _ | ⟨low, _ | ⟨separator, tail⟩⟩⟩
  · cases h
  · cases h
  · simp [isMac, isOctets] at h
  · refine ⟨high, low, separator, tail, rfl, ?_⟩
    rcases tail with _ | ⟨a, _ | ⟨b, tail⟩⟩ <;> simp_all [isMac, isOctets]

/-- No match begins before a part that has no separator of octets and ends in
no digit. -/
theorem searchMac_skip {before : Option Char} (hne : part ≠ [])
    (hpart : ∀ c ∈ part, c ≠ ':' ∧ c ≠ '-')
    (hlast : ∀ c ∈ part.getLast?, isHex c = false) (rest : Text) :
    searchMac W before (part ++ rest) = searchMac W part.getLast? rest := by
  induction part generalizing before with
  | nil => exact absurd rfl hne
  | cons c part ih =>
    have hnot : isMac ((c :: part ++ rest).take 17) = false := by
      rw [Bool.eq_false_iff]
      intro h
      obtain ⟨high, low, separator, tail, heq, hhigh, hlow, hseparator⟩ := isMac_take h
      rcases part with _ | ⟨d, _ | ⟨e, part⟩⟩
      · cases heq
        rw [hlast c rfl] at hhigh
        cases hhigh
      · cases heq
        rw [hlast low rfl] at hlow
        cases hlow
      · cases heq
        obtain ⟨hcolon, hdash⟩ := hpart separator (by simp)
        exact hseparator.elim hcolon hdash
    have hstart : macAt W before (c :: (part ++ rest)) = false := by
      rw [List.cons_append] at hnot
      simp only [macAt, hnot, Bool.and_false, Bool.false_and]
    rw [List.cons_append, searchMac, hstart, if_neg Bool.false_ne_true]
    cases part with
    | nil => rfl
    | cons d part =>
      rw [ih (by simp) (fun c hc => hpart c (List.mem_cons_of_mem _ hc)) hlast]
      rfl

theorem searchMac_column {before : Option Char} (hcolumn : ∀ c ∈ column, c ≠ ':' ∧ c ≠ '-')
    (hgap : IsGap gap) (hne : gap ≠ []) (rest : Text) :
    searchMac W before (column ++ (gap ++ rest)) = searchMac W gap.getLast? rest := by
  obtain ⟨last, hlast⟩ := Option.ne_none_iff_exists'.mp (mt List.getLast?_eq_none_iff.mp hne)
  have hend : (column ++ gap).getLast? = some last := by
    rw [List.getLast?_append, hlast, Option.some_or]
  rw [← List.append_assoc, searchMac_skip (by simp [hne]) ?_ ?_ rest, hend, hlast]
  · intro c hc
    rcases List.mem_append.mp hc with hc | hc
    · exact hcolumn c hc
    · rcases hgap c hc with rfl | rfl <;> decide
  · intro c hc
    rw [hend] at hc
    cases hc
    rcases hgap last (List.mem_of_getLast? hlast) with rfl | rfl <;> rfl

def IsSeparator (c : Char) : Prop := c = ':' ∨ c = '-'

theorem isOctets_succ (h : isOctets (n + 1) rest = true) :
    ∃ separator high low tail, rest = separator :: high :: low :: tail ∧ IsSeparator separator ∧
      isHex high = true ∧ isHex low = true ∧ isOctets n tail = true := by
  rcases rest with _ | ⟨separator, _ | ⟨high, _ | ⟨low, tail⟩⟩⟩
  · cases h
  · cases h
  · cases h
  · simp only [isOctets, Bool.and_eq_true, Bool.or_eq_true, decide_eq_true_eq] at h
    exact ⟨separator, high, low, tail, rfl, h.1.1.1, h.1.1.2, h.1.2, h.2⟩

theorem isOctets_length (h : isOctets n rest = true) : rest.length = 3 * n := by
  induction n generalizing rest with
  | zero => simpa [isOctets] using h
  | succ n ih =>
    obtain ⟨separator, high, low, tail, rfl, -, -, -, htail⟩ := isOctets_succ h
    simp only [List.length_cons, ih htail]
    omega

theorem isOctets_chars (h : isOctets n rest = true) (hc : c ∈ rest) :
    isHex c = true ∨ IsSeparator c := by
  induction n generalizing rest with
  | zero =>
    rw [List.isEmpty_iff.mp h] at hc
    cases hc
  | succ n ih =>
    obtain ⟨separator, high, low, tail, rfl, hseparator, hhigh, hlow, htail⟩ := isOctets_succ h
    simp only [List.mem_cons] at hc
    rcases hc with rfl | rfl | rfl | hc
    · exact .inr hseparator
    · exact .inl hhigh
    · exact .inl hlow
    · exact ih htail hc

theorem isMac_length (h : isMac address = true) : address.length = 17 := by
  rcases address with _ | ⟨high, _ | ⟨low, rest⟩⟩
  · cases h
  · cases h
  · simp only [isMac, Bool.and_eq_true] at h
    simp [isOctets_length h.2]

theorem isMac_chars (h : isMac address = true) (hc : c ∈ address) :
    isHex c = true ∨ IsSeparator c := by
  rcases address with _ | ⟨high, _ | ⟨low, rest⟩⟩
  · cases h
  · cases h
  · simp only [isMac, Bool.and_eq_true] at h
    simp only [List.mem_cons] at hc
    rcases hc with rfl | rfl | hc
    · exact .inl h.1.1
    · exact .inl h.1.2
    · exact isOctets_chars h.2 hc

theorem searchMac_match {before : Option Char} (h : isMac address = true)
    (hbefore : before.any (isWord W) = false)
    (hafter : rest.head?.any (isWord W) = false) : searchMac W before
      (address ++ rest) = some address := by
  have hlen := isMac_length h
  have htake : (address ++ rest).take 17 = address := List.take_left' hlen
  have hdrop : (address ++ rest).drop 17 = rest := List.drop_left' hlen
  have hmatch : macAt W before (address ++ rest) = true := by
    simp only [macAt, htake, hdrop, h, hbefore, hafter]
    rfl
  cases address with
  | nil => cases h
  | cons c address =>
    rw [List.cons_append] at hmatch htake ⊢
    rw [searchMac, hmatch, if_pos rfl, htake]

theorem IsGap.isWord (h : IsGap gap) (hc : c ∈ gap) : Deck.isWord W c = false := by
  rcases h c hc with rfl | rfl <;> rfl

end

-- ---------------------------------------------------------------------------
-- Rows
-- ---------------------------------------------------------------------------

theorem hex_ne {c d : Char} (h : isHex c = true) (hd : isHex d = false) : c ≠ d := by
  rintro rfl
  rw [h] at hd
  cases hd

theorem isHexNumber_ne {c d : Char} (h : isHexNumber number = true) (hc : c ∈ number)
    (hd : isHex d = false) (hx : d ≠ 'x') : c ≠ d := by
  unfold isHexNumber at h
  split at h
  · simp only [Bool.and_eq_true, List.all_eq_true] at h
    simp only [List.mem_cons] at hc
    rcases hc with rfl | rfl | hc
    · rintro rfl
      cases hd
    · exact hx.symm
    · exact hex_ne (h.2 c hc) hd
  · cases h

theorem isIPv4_ne {c d : Char} (h : isIPv4 address = true) (hc : c ∈ address) (hdot : d ≠ '.')
    (hd : d.isDigit = false) : c ≠ d := by
  rintro rfl
  rcases isIPv4_digits h hc with rfl | hdigit
  · exact hdot rfl
  · rw [hdigit] at hd
    cases hd

theorem isIPv4_dot (h : isIPv4 address = true) : '.' ∈ address := by
  by_contra hnot
  have hsingle : address.splitOn '.' = [address] := by
    refine List.splitOnP_eq_singleton fun c hc => ?_
    rw [beq_eq_false_iff_ne]
    rintro rfl
    exact hnot hc
  simp [isIPv4, hsingle] at h

theorem hex_kept {c : Char} (h : isHex c = true) :
    (!(c = '-' || c = ':' || c = '.' || isSpace c)) = true := by
  have hall : (hexChars.all fun c => !(c = '-' || c = ':' || c = '.' || isSpace c)) = true := by
    decide +kernel
  exact List.all_eq_true.mp hall c (mem_hexChars h)

theorem IsSeparator.dropped (h : IsSeparator c) :
    (!(c = '-' || c = ':' || c = '.' || isSpace c)) = false := by
  rcases h with rfl | rfl <;> rfl

theorem IsSeparator.macChar_eq (h : IsSeparator c) : macChar c = ':' := by
  rcases h with rfl | rfl <;> rfl

theorem macChar_hex (h : isHex c = true) : macChar c = c.toUpper := if_neg (hex_ne h rfl)

namespace Neighbour

theorem search_line {row : Neighbour} (h : Columns row.columns line) (W : Char → Bool) :
    searchMac W none line = some row.address := by
  rcases h with _ | ⟨-, hgap1, hne1,
    _ | ⟨-, hgap2, hne2, _ | ⟨-, hgap3, hne3, _ | ⟨-, hgap4, hne4, -⟩⟩⟩⟩
  have hhex {number : Text} (h : isHexNumber number = true) : ∀ c ∈ number, c ≠ ':' ∧ c ≠ '-' :=
    fun c hc =>
    ⟨isHexNumber_ne h hc rfl (by decide), isHexNumber_ne h hc rfl (by decide)⟩
  have hip : ∀ c ∈ row.ip, c ≠ ':' ∧ c ≠ '-' := fun c hc =>
    ⟨isIPv4_ne row.ipv4 hc (by decide) rfl, isIPv4_ne row.ipv4 hc (by decide) rfl⟩
  rw [searchMac_column hip hgap1 hne1, searchMac_column (hhex row.hexType) hgap2 hne2,
    searchMac_column (hhex row.hexFlags) hgap3 hne3]
  refine searchMac_match row.hexAddress ?_ ?_
  · rw [Option.any_eq_false]
    intro c hc
    simp [hgap3.isWord (List.mem_of_mem_getLast? hc)]
  · obtain ⟨c, hc⟩ := Option.ne_none_iff_exists'.mp (mt List.head?_eq_none_iff.mp hne4)
    rw [List.head?_append, hc, Option.some_or]
    exact hgap4.isWord (List.mem_of_mem_head? hc)

theorem normalizeMac_address (row : Neighbour) : normalizeMac row.address = .ok row.mac := by
  have hmac := row.hexAddress
  rw [mac]
  generalize row.address = address at hmac
  rcases address with _ | ⟨a, _ | ⟨b, rest⟩⟩
  · cases hmac
  · cases hmac
  · simp only [isMac, Bool.and_eq_true] at hmac
    obtain ⟨⟨ha, hb⟩, hrest⟩ := hmac
    obtain ⟨s1, c, d, rest, rfl, hs1, hc, hd, hrest⟩ := isOctets_succ hrest
    obtain ⟨s2, e, f, rest, rfl, hs2, he, hf, hrest⟩ := isOctets_succ hrest
    obtain ⟨s3, g, h, rest, rfl, hs3, hg, hh, hrest⟩ := isOctets_succ hrest
    obtain ⟨s4, i, j, rest, rfl, hs4, hi, hj, hrest⟩ := isOctets_succ hrest
    obtain ⟨s5, k, l, rest, rfl, hs5, hk, hl, hrest⟩ := isOctets_succ hrest
    obtain rfl := List.isEmpty_iff.mp hrest
    have hcompact : compactMac [a, b, s1, c, d, s2, e, f, s3, g, h, s4, i, j, s5, k, l] =
        [a, b, c, d, e, f, g, h, i, j, k, l] := by
      simp only [compactMac, List.filter_cons, hex_kept ha, hex_kept hb, hex_kept hc, hex_kept hd,
        hex_kept he, hex_kept hf, hex_kept hg, hex_kept hh, hex_kept hi, hex_kept hj,
        hex_kept hk, hex_kept hl, hs1.dropped, hs2.dropped, hs3.dropped, hs4.dropped, hs5.dropped]
      rfl
    rw [normalizeMac, hcompact]
    simp only [List.map_cons, List.map_nil, macChar_hex, ha, hb, hc, hd, he, hf, hg, hh, hi, hj,
      hk, hl, hs1.macChar_eq, hs2.macChar_eq, hs3.macChar_eq, hs4.macChar_eq, hs5.macChar_eq,
      List.all_cons, List.all_nil, Bool.and_true, ↓reduceIte]

theorem mem_columns {ip : Text} (hip : isIPv4 ip = true) (row : Neighbour) :
    ip ∈ row.columns ↔ row.mentions ip = true := by
  have hdot := isIPv4_dot hip
  have hhex {number : Text} (h : isHexNumber number = true) : ip ≠ number := by
    rintro rfl
    exact isHexNumber_ne h hdot rfl (by decide) rfl
  have hmac : ip ≠ row.address := by
    rintro rfl
    rcases isMac_chars row.hexAddress hdot with hhex | hseparator | hseparator
    · cases hhex
    · cases hseparator
    · cases hseparator
  simp [columns, mentions, hhex row.hexType, hhex row.hexFlags, hmac, or_assoc, @eq_comm _ ip]

end Neighbour

theorem not_mem_tableHeader (hip : isIPv4 ip = true) : ip ∉ tableHeader := by
  have hall : (tableHeader.all fun word => !word.contains '.') = true := by decide
  intro hmem
  have hnot := List.all_eq_true.mp hall ip hmem
  simp [isIPv4_dot hip] at hnot

theorem exists_columns {rows : List Neighbour}
    (h : List.Forall₂ (fun (row : Neighbour) line => Columns row.columns line) rows lines) :
    ∀ line ∈ lines, ∃ columns, Columns columns line := by
  induction h with
  | nil => simp
  | cons hline _ ih =>
    intro line hmem
    rcases List.mem_cons.mp hmem with rfl | hmem
    · exact ⟨_, hline⟩
    · exact ih line hmem

/-- The first row that mentions the address decides. -/
theorem findIn_rows (W : Char → Bool) (hip : isIPv4 ip = true) {rows : List Neighbour}
    (h : List.Forall₂ (fun (row : Neighbour) line => Columns row.columns line) rows lines) :
    findIn W ip lines = .ok (((rows.find? (·.mentions ip)).map (·.mac)).getD []) := by
  induction h with
  | nil => rfl
  | @cons row line rows lines hline _ ih =>
    rw [findIn, hline.words_eq]
    cases hmentions : row.mentions ip with
    | true =>
      rw [if_pos ((row.mem_columns hip).mpr hmentions), Neighbour.search_line hline]
      simp [hmentions, row.normalizeMac_address]
    | false =>
      rw [if_neg (by rw [row.mem_columns hip, hmentions]; exact Bool.false_ne_true), ih]
      simp [hmentions]

theorem findMac_table (W : Char → Bool) (hip : isIPv4 ip = true) (h : Table rows text) :
    findMac W ip text = .ok (((rows.find? (·.mentions ip)).map (·.mac)).getD []) := by
  obtain ⟨hheader, hlines, hlast⟩ := h
  rename_i header lines last
  have hcolumns : ∀ line ∈ header :: lines, ∃ columns, Columns columns line := by
    intro line hline
    rcases List.mem_cons.mp hline with rfl | hline
    · exact ⟨_, hheader⟩
    · exact exists_columns hlines line hline
  have hsplit : splitLines (['\n'].intercalate (header :: lines) ++ last) = header :: lines :=
    linesOf_intercalate rfl (fun line hline => (hcolumns line hline).elim fun _ h => h.ne_nil)
      (fun line hline => (hcolumns line hline).elim fun _ h => h.no_break) hlast (by simp)
  rw [findMac, hsplit, findIn, hheader.words_eq, if_neg (not_mem_tableHeader hip),
    findIn_rows W hip hlines]

theorem columns_intercalate {columns : List Text} (hne : columns ≠ [])
    (h : (columns.all fun column => !column.isEmpty && column.all fun c => !isSpace c) = true) :
    Columns columns ([' '].intercalate columns) := by
  induction columns with
  | nil => exact absurd rfl hne
  | cons column columns ih =>
    simp only [List.all_cons, Bool.and_eq_true] at h
    have hcolumn : IsColumn column := by simpa [IsColumn] using h.1
    have hgap : IsGap [' '] := by simp [IsGap]
    cases columns with
    | nil =>
      have hnone : IsGap [] := by simp [IsGap]
      have hlast := Columns.last hcolumn hnone
      rw [List.append_nil] at hlast
      rwa [intercalate_singleton]
    | cons column' columns =>
      rw [intercalate_cons_cons]
      exact .cons hcolumn hgap (by simp) (ih (by simp) h.2)

def entry (flags : Text) (address : Text) (hflags : isHexNumber flags = true)
    (haddress : isMac address = true) :
    Neighbour where
  ip := "192.168.1.42".toList
  hwType := "0x1".toList
  flags
  address
  mask := "*".toList
  device := "wlan0".toList
  ipv4 := by decide
  hexType := by decide
  hexFlags := hflags
  hexAddress := haddress

def resolvedEntry : Neighbour :=
  entry "0x2".toList "11:22:33:44:55:66".toList (by decide) (by decide)

def unresolvedEntry : Neighbour :=
  entry "0x0".toList "00:00:00:00:00:00".toList (by decide) (by decide)

def tableOf (row : Neighbour) : Text :=
  ['\n'].intercalate [[' '].intercalate tableHeader, [' '].intercalate row.columns] ++ ['\n']

theorem table_tableOf {row : Neighbour}
    (h : (row.columns.all fun column => !column.isEmpty && column.all fun c => !isSpace c) = true) :
    Table [row] (tableOf row) :=
  .mk (columns_intercalate (by simp [tableHeader]) (by decide +kernel))
    (.cons (columns_intercalate (by simp [Neighbour.columns]) h) .nil) (.inr rfl)

/-- In every table, `find_mac` finds what the table has for an address exactly if
the first row that mentions the address has the hardware address of the first
resolved entry for it, or there is neither. -/
theorem findMac_resolved_iff (W : Char → Bool) (hip : isIPv4 ip = true) (h : Table rows text) :
    findMac W ip text = .ok (resolvedMac ip rows) ↔
      (rows.find? (·.mentions ip)).map (·.mac) = (rows.find? (·.resolves ip)).map (·.mac) := by
  have hne : ∀ row : Neighbour, row.mac ≠ [] := by
    intro row hmac
    have hlen := isMac_length row.hexAddress
    rw [Neighbour.mac, List.map_eq_nil_iff] at hmac
    rw [hmac] at hlen
    cases hlen
  rw [findMac_table W hip h, resolvedMac, Except.ok.injEq]
  cases rows.find? (·.mentions ip) with
  | none => cases rows.find? (·.resolves ip) <;> simp [Ne.symm (hne _)]
  | some row => cases rows.find? (·.resolves ip) <;> simp [hne]

theorem resolved_entry_found :
    tableOf resolvedEntry =
        "IP address HW type Flags HW address Mask Device\n192.168.1.42 0x1 0x2 11:22:33:44:55:66 * wlan0\n".toList ∧
      findMac (fun _ => false) "192.168.1.42".toList (tableOf resolvedEntry) =
        .ok "11:22:33:44:55:66".toList :=
  ⟨by decide +kernel, (findMac_resolved_iff _ (by decide) (table_tableOf (by decide +kernel))).mpr
    (by decide +kernel)⟩

/-- An entry that is not resolved has no hardware address. -/
theorem unresolved_entry_found :
    Table [unresolvedEntry] (tableOf unresolvedEntry) ∧
      tableOf unresolvedEntry =
        "IP address HW type Flags HW address Mask Device\n192.168.1.42 0x1 0x0 00:00:00:00:00:00 * wlan0\n".toList ∧
      findMac (fun _ => false) "192.168.1.42".toList (tableOf unresolvedEntry) =
        .ok "00:00:00:00:00:00".toList ∧
      resolvedMac "192.168.1.42".toList [unresolvedEntry] = [] := by
  refine ⟨table_tableOf (by decide +kernel), by decide +kernel, by decide +kernel,
    by decide +kernel⟩

end DeckyMyRig.Deck
