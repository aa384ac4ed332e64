import OtaApi.CText
import OtaApi.Rollback

/-!
# The basic application

`examples/basic/main/main.c`: connect, print the hashes of what is on flash, and start
the task that updates from the URL of the build, or from one that is typed.
-/

namespace OtaApi.Basic

open Interaction CText

/-- The interface an update can be bound to. -/
inductive BindIf where
  | eth | sta | thread
  deriving DecidableEq, Repr

/-- The build, with the options of the example's `Kconfig` and the certificate that is
linked in. The bundle depends on the one of mbedTLS, and the URL is typed in exactly
the builds that say so in its place. -/
structure Options where
  build : BuildOptions
  exampleConnectWifi : Bool
  exampleFirmwareUpgradeUrl : String
  exampleFirmwareUpgradeUrlFromStdin : Bool
  exampleUseCertBundle : Bool
  exampleSkipCommonNameCheck : Bool
  exampleFirmwareUpgradeBindIf : Option BindIf
  serverCertPem : String
  bundle_depends : exampleUseCertBundle = true → build.mbedtlsCertificateBundle = true
  fromStdin_iff :
    exampleFirmwareUpgradeUrlFromStdin = true ↔ exampleFirmwareUpgradeUrl = "FROM_STDIN"

/-- `uint8_t sha_256[HASH_LEN]` -/
structure Sha256 where
  bytes : List UInt8
  size : bytes.length = 32
  deriving DecidableEq, Repr

/-- What a hash is taken of. -/
inductive Region where
  | bootloader | running
  deriving DecidableEq, Repr

/-- The calls of `app_main()`. It shares most of them with the rollback application.
`frame` is what an automatic array happens to hold, `outOfBounds` a store before the
first byte of one. -/
inductive MainCall where
  | common : Rollback.MainCall → MainCall
  | partitionGetSha256 : Region → MainCall
  | frame : MainCall
  | logi : String → Str → MainCall
  | getExampleNetifFromDesc : BindIf → MainCall
  | configureStdinStdout : MainCall
  | stdin : MainCall
  | outOfBounds : MainCall
  deriving DecidableEq, Repr

@[reducible] def MainAnswer : MainCall → Type
  | .common c => Rollback.MainAnswer c
  | .partitionGetSha256 _ => EspErr × Sha256
  | .frame => Buffer 65
  | .logi _ _ => Unit
  | .getExampleNetifFromDesc _ => Option Netif
  | .configureStdinStdout => EspErr
  | .stdin => List Char
  | .outOfBounds => Empty

abbrev MainProgram := Prog MainCall MainAnswer
abbrev MainEvent := Interaction.Event MainCall MainAnswer

def mainAsk (c : MainCall) : MainProgram (MainAnswer c) := Prog.ask c

def commonCalls : Embedding Rollback.MainCall Rollback.MainAnswer MainCall MainAnswer :=
  ⟨.common, fun _ a => a⟩

def otaCalls : Embedding Call Answer MainCall MainAnswer := ⟨fun c => .common (.ota c), fun _ a => a⟩

/-- `ESP_ERROR_CHECK()` -/
def espErrorCheck (err : EspErr) : MainProgram Unit := (Rollback.espErrorCheck err).embed commonCalls

/-! ## The hashes -/

/-- `sprintf(s, "%02x", byte)`, without the NUL. -/
def hexByte (byte : UInt8) : List Char :=
  [Nat.digitChar (byte.toNat / 16), Nat.digitChar (byte.toNat % 16)]

/-- The loop of `print_sha256()`, from its `i`-th turn on. -/
def printFrom {n : Nat} (hashPrint : Buffer n) (i : Nat) : List UInt8 → Buffer n
  | [] => hashPrint
  | byte :: bytes => printFrom (hashPrint.storeAll (i * 2) (hexByte byte ++ [nul])) (i + 1) bytes

/-- `hash_print`, with what its frame held to begin with. -/
def hashPrint (frame : Buffer 65) (imageHash : Sha256) : Buffer 65 :=
  printFrom (frame.store 64 nul) 0 imageHash.bytes

def printSha256 (imageHash : Sha256) (label : String) : MainProgram Unit := do
  let frame ← mainAsk .frame
  let _ ← mainAsk (.logi label (hashPrint frame imageHash).str)
  pure ()

def getSha256OfPartitions : MainProgram Unit := do
  let (_, sha256) ← mainAsk (.partitionGetSha256 .bootloader)
  printSha256 sha256 "SHA-256 for bootloader: "
  let (_, sha256) ← mainAsk (.partitionGetSha256 .running)
  printSha256 sha256 "SHA-256 for current firmware: "

/-! ## The URL -/

/-- The line that is typed, without its last character; nothing if there is none to
take away. -/
def readUrl (stdin : List Char) : Option (Buffer 256) :=
  let urlBuf := (Buffer.zeroed 256).fgets stdin
  let len := urlBuf.str.strlen
  if len = 0 then none else some (urlBuf.store (len - 1) nul)

/-- `ota_config.url`, the last of the settings. -/
def chooseUrl (o : Options) : MainProgram String :=
  if o.exampleFirmwareUpgradeUrlFromStdin then
    if o.exampleFirmwareUpgradeUrl = "FROM_STDIN" then do
      let _ ← mainAsk .configureStdinStdout
      let stdin ← mainAsk .stdin
      match readUrl stdin with
      | some urlBuf => pure urlBuf.str.text
      | none =>
        let never ← mainAsk .outOfBounds
        nomatch never
    else do
      let never ← mainAsk (.common .abort)
      nomatch never
  else pure o.exampleFirmwareUpgradeUrl

/-! ## The update -/

/-- `ota_config.bind_netif` -/
def chooseNetif (o : Options) : MainProgram (Option Netif) :=
  match o.exampleFirmwareUpgradeBindIf with
  | none => pure none
  | some bindInterfaceName => do
    let bindNetif ← mainAsk (.getExampleNetifFromDesc bindInterfaceName)
    if bindNetif = none then
      let never ← mainAsk (.common .abort)
      nomatch never
    else pure bindNetif

def Options.otaConfig (o : Options) (bindNetif : Option Netif) (url : String) : OtaApiConfig :=
  { otaApiConfigDefault with
    url := some url
    certPem := if o.exampleUseCertBundle then none else some o.serverCertPem
    skipCommonNameCheck := o.exampleSkipCommonNameCheck
    bindNetif := bindNetif }

/-- Compiled for Wi-Fi only. -/
def setPowerSave (o : Options) : MainProgram Unit :=
  if o.exampleConnectWifi then do
    let _ ← mainAsk (.common .wifiSetPs)
    pure ()
  else pure ()

/-- `app_main()` from the network on. -/
def startUpdate (o : Options) : MainProgram Empty := do
  setPowerSave o
  let bindNetif ← chooseNetif o
  let url ← chooseUrl o
  let err ← (otaApiStartTask o.build (some (o.otaConfig bindNetif url))).embed otaCalls
  espErrorCheck err
  Rollback.stayRunning.embed commonCalls

def appMain (o : Options) : MainProgram Empty := do
  Rollback.initializeNvs.embed commonCalls
  getSha256OfPartitions
  espErrorCheck (← mainAsk (.common .netifInit))
  espErrorCheck (← mainAsk (.common .eventLoopCreateDefault))
  espErrorCheck (← mainAsk (.common .exampleConnect))
  startUpdate o

/-! ## What is printed -/

section Printed

/-- A byte is printed behind what is there, and a NUL behind it. -/
theorem storeAll_hexByte {n : Nat} {b : Buffer n} {i : Nat} (byte : UInt8) (hfits : i + 2 < n) :
    (b.storeAll i (hexByte byte ++ [nul])).cells =
        (b.cells.take i ++ hexByte byte) ++ nul :: b.cells.drop (i + 3) ∧
      (b.cells.take i ++ hexByte byte).length = i + 2 := by
  have hcells := @Buffer.cells_storeAll n b i (hexByte byte ++ [nul]) hfits
  have hlen : (b.cells.take i).length = i := by
    rw [List.length_take, b.size]
    omega
  refine ⟨?_, by rw [List.length_append, hlen]; rfl⟩
  rw [hcells]
  simp [hexByte]

/-- The turns that are left print their bytes, and the NUL at the end stays. -/
theorem printFrom_cells {n : Nat} {b : Buffer n} {i : Nat} {bytes : List UInt8}
    (hfits : i * 2 + bytes.length * 2 < n) (hend : b.cells[i * 2 + bytes.length * 2]? = some nul) :
    (printFrom b i bytes).cells.take (i * 2 + bytes.length * 2) =
        b.cells.take (i * 2) ++ bytes.flatMap hexByte ∧
      (printFrom b i bytes).cells[i * 2 + bytes.length * 2]? = some nul := by
  induction bytes generalizing b i with
  | nil => simpa [printFrom] using hend
  | cons byte bytes ih =>
    have hlen : i * 2 + (byte :: bytes).length * 2 = (i + 1) * 2 + bytes.length * 2 := by
      rw [List.length_cons]
      omega
    rw [hlen] at hfits hend ⊢
    obtain ⟨hcells, hwritten⟩ := @storeAll_hexByte n b (i * 2) byte (by omega)
    have hturn : i * 2 + 2 = (i + 1) * 2 := by omega
    rw [hturn] at hwritten
    have htake : (b.storeAll (i * 2) (hexByte byte ++ [nul])).cells.take ((i + 1) * 2) =
        b.cells.take (i * 2) ++ hexByte byte := by
      rw [hcells, ← hwritten, List.take_left]
    have hnul : (b.storeAll (i * 2) (hexByte byte ++ [nul])).cells[(i + 1) * 2 + bytes.length * 2]? =
        some nul := by
      rw [hcells, List.getElem?_append_right (by omega), hwritten, Nat.add_sub_cancel_left]
      cases bytes with
      | nil => rfl
      | cons next bytes =>
        rw [List.length_cons] at hend ⊢
        rw [show (bytes.length + 1) * 2 = (bytes.length * 2 + 1) + 1 by omega,
          List.getElem?_cons_succ, List.getElem?_drop, ← hend]
        congr 1
        omega
    obtain ⟨hdone, hlast⟩ := ih hfits hnul
    refine ⟨?_, hlast⟩
    rw [printFrom, hdone, htake, List.flatMap_cons, List.append_assoc]

theorem digitChar_ne_nul {d : Nat} (h : d < 16) : Nat.digitChar d ≠ nul := by
  have hall : ∀ d : Fin 16, Nat.digitChar d ≠ nul := by decide
  exact hall ⟨d, h⟩

theorem digitChar_injective {d e : Nat} (hd : d < 16) (he : e < 16)
    (h : Nat.digitChar d = Nat.digitChar e) : d = e := by
  have hall : ∀ d e : Fin 16, Nat.digitChar d = Nat.digitChar e → d = e := by decide
  exact congrArg Fin.val (hall ⟨d, hd⟩ ⟨e, he⟩ h)

theorem nul_not_mem_hexByte (byte : UInt8) : nul ∉ hexByte byte := by
  have hbyte := byte.toNat_lt
  simp only [hexByte, List.mem_cons, List.not_mem_nil, or_false, not_or]
  exact ⟨(digitChar_ne_nul (by omega)).symm, (digitChar_ne_nul (by omega)).symm⟩

theorem hexByte_injective {byte byte' : UInt8} (h : hexByte byte = hexByte byte') : byte = byte' := by
  have hbyte := byte.toNat_lt
  have hbyte' := byte'.toNat_lt
  simp only [hexByte, List.cons.injEq, and_true] at h
  have hhigh := digitChar_injective (by omega) (by omega) h.1
  have hlow := digitChar_injective (by omega) (by omega) h.2
  apply UInt8.toNat_inj.mp
  omega

theorem flatMap_hexByte_injective {bytes bytes' : List UInt8}
    (h : bytes.flatMap hexByte = bytes'.flatMap hexByte) : bytes = bytes' := by
  induction bytes generalizing bytes' with
  | nil =>
    cases bytes' with
    | nil => rfl
    | cons byte bytes' => cases h
  | cons byte bytes ih =>
    cases bytes' with
    | nil => cases h
    | cons byte' bytes' =>
      rw [List.flatMap_cons, List.flatMap_cons] at h
      obtain ⟨hbyte, hrest⟩ := List.append_inj h rfl
      rw [hexByte_injective hbyte, ih hrest]

/-- What is printed is the hash, digit by digit, whatever the frame held. -/
theorem hashPrint_chars (frame : Buffer 65) (imageHash : Sha256) :
    (hashPrint frame imageHash).str.chars = imageHash.bytes.flatMap hexByte := by
  have hend : (frame.store 64 nul).cells[0 * 2 + imageHash.bytes.length * 2]? = some nul := by
    change (frame.cells.set 64 nul)[_]? = _
    rw [imageHash.size, List.getElem?_set_self (by rw [frame.size]; decide)]
  obtain ⟨hdone, hlast⟩ := printFrom_cells (by rw [imageHash.size]; decide) hend
  rw [Nat.zero_mul, List.take_zero, List.nil_append] at hdone
  have hnoNul : nul ∉ imageHash.bytes.flatMap hexByte := by
    intro hmem
    obtain ⟨byte, _, hbyte⟩ := List.mem_flatMap.mp hmem
    exact nul_not_mem_hexByte byte hbyte
  have hstr := @Buffer.str_of_take 65 (hashPrint frame imageHash) ⟨_, hnoNul⟩ _ hdone
    (by rwa [Nat.zero_mul] at hlast)
  rw [hstr]

/-- Two hashes are printed alike only if they are the same. -/
theorem hashPrint_eq_iff (frame frame' : Buffer 65) (imageHash imageHash' : Sha256) :
    (hashPrint frame imageHash).str = (hashPrint frame' imageHash').str ↔ imageHash = imageHash' := by
  constructor
  · intro h
    have hchars := congrArg Str.chars h
    rw [hashPrint_chars, hashPrint_chars] at hchars
    have hbytes := flatMap_hexByte_injective hchars
    cases imageHash
    cases imageHash'
    cases hbytes
    rfl
  · rintro rfl
    apply Str.ext_chars
    rw [hashPrint_chars, hashPrint_chars]

end Printed

/-! ## What is read -/

/-- What becomes of a typed line. -/
structure UrlRead (stdin : List Char) : Prop where
  /-- Nothing was typed, or a NUL first. -/
  undefined : readUrl stdin = none ↔ lineOf stdin = [] ∧ stdin.head? ≠ some '\n'
  text : ∀ urlBuf, readUrl stdin = some urlBuf → urlBuf.str.chars =
    if EndsWithin 255 stdin then lineOf stdin else ((lineOf stdin).take 255).dropLast
  /-- The URL is what was typed if and only if its newline fitted too. -/
  whole : (∃ urlBuf, readUrl stdin = some urlBuf ∧ urlBuf.str.chars = lineOf stdin) ↔
    EndsWithin 255 stdin

theorem lineOf_eq_nil_iff (stdin : List Char) :
    lineOf stdin = [] ∧ stdin.head? ≠ some '\n' ↔ lineOf stdin = [] ∧ ¬EndsWithin 255 stdin := by
  refine and_congr_right fun hline => not_congr ?_
  simp [EndsWithin, hline, List.head?_eq_getElem?]

/-- What `fgets()` leaves in the buffer, as far as it is a string. -/
def taken (stdin : List Char) : List Char :=
  if EndsWithin 255 stdin then lineOf stdin ++ ['\n'] else (lineOf stdin).take 255

/-- Its last character is taken away, if there is one. -/
theorem readUrl_taken (stdin : List Char) :
    (taken stdin = [] ∧ readUrl stdin = none) ∨
      ∃ urlBuf, taken stdin ≠ [] ∧ readUrl stdin = some urlBuf ∧
        urlBuf.str.chars = (taken stdin).dropLast := by
  have hchars : ((Buffer.zeroed 256).fgets stdin).str.chars = taken stdin := by
    rw [Buffer.str_fgets stdin (by decide), fgetsLine_str]
    rfl
  have hlen : ((Buffer.zeroed 256).fgets stdin).str.strlen = (taken stdin).length := by
    rw [← hchars]
    rfl
  by_cases hempty : taken stdin = []
  · refine .inl ⟨hempty, if_pos ?_⟩
    rw [hlen, hempty]
    rfl
  · have hne := List.length_pos_iff.mpr hempty
    refine .inr ⟨_, hempty, if_neg (by omega), ?_⟩
    rw [Buffer.str_store_nul (by omega), hchars, hlen, List.dropLast_eq_take]

theorem url_read (stdin : List Char) : UrlRead stdin := by
  by_cases hends : EndsWithin 255 stdin
  case pos =>
    have htaken : taken stdin = lineOf stdin ++ ['\n'] := if_pos hends
    obtain ⟨hnil, _⟩ | ⟨urlBuf, _, hread, htext⟩ := readUrl_taken stdin
    · simp [htaken] at hnil
    · rw [htaken, List.dropLast_concat] at htext
      refine ⟨?_, ?_, iff_of_true ⟨urlBuf, hread, htext⟩ hends⟩
      · rw [lineOf_eq_nil_iff, hread]
        exact iff_of_false (by simp) fun h => h.2 hends
      · intro b hb
        rw [hread] at hb
        cases hb
        rw [if_pos hends, htext]
  case neg =>
    have htaken : taken stdin = (lineOf stdin).take 255 := if_neg hends
    obtain ⟨hnil, hread⟩ | ⟨urlBuf, hcons, hread, htext⟩ := readUrl_taken stdin
    · have hline : lineOf stdin = [] := by simpa [htaken] using hnil
      refine ⟨?_, ?_, iff_of_false ?_ hends⟩
      · rw [lineOf_eq_nil_iff]
        exact iff_of_true hread ⟨hline, hends⟩
      · simp [hread]
      · simp [hread]
    · have hline : lineOf stdin ≠ [] := by simpa [htaken] using hcons
      have hpos := List.length_pos_iff.mpr hline
      rw [htaken] at htext
      refine ⟨?_, ?_, iff_of_false ?_ hends⟩
      · rw [hread]
        exact iff_of_false (by simp) fun h => hline h.1
      · intro b hb
        rw [hread] at hb
        cases hb
        rw [if_neg hends, htext]
      · rintro ⟨b, hb, hwhole⟩
        rw [hread] at hb
        cases hb
        -- the cut is felt in the length
        have hlen := congrArg List.length (htext.symm.trans hwhole)
        rw [List.length_dropLast, List.length_take] at hlen
        omega

end OtaApi.Basic
