/-
  The firmware layout table (tools/tplink-safeloader/tplink-safeloader.c, `boards`, `find_board`).

  1. The boards, each with its entry of the table.  They are written out in full and in the order of
     the source, with the vendor text and the list of supported products byte for byte, line ends
     included.

  2. `Supported` — what the rest of the tool rests on: partitions with names of their own, apart and
     in order, a table text that fits, room for what the tool makes by itself.
     **`boards_supported`**: every board meets it.  That is one evaluation over the table
     (`supported_all`), and the only place where the entries are looked at for these facts.

  3. **`findBoard_iff`** — the id, in any case of its letters, names one board.

  4. **`boards_table`** — the table a board's image carries reads back as the board's partitions.
-/
import Mathlib.Tactic.MkIffOfInductiveProp
import Safewrt.Safeloader.Sysupgrade

namespace Safewrt.Safeloader

open Safewrt.Lib

/-! ## The boards

  Each is written under the name the source gives it in its comment or its id, with the fields in
  the order of the structure.  `cpe210`, `eap120` and `archerC7V4` stand with the modules that use
  them as their samples. -/

/-- A support list with one line for each special id. -/
def products (lineEnd name ver : String) (specialIds : List String) : CString :=
  specialIds.foldl (fun list specialId => list ++ (cstring "\x7bproduct_name:" ++ cstring name ++
    cstring ",product_ver:" ++ cstring ver ++ cstring ",special_id:" ++ cstring specialId ++
    cstring "\x7d" ++ cstring lineEnd)) (cstring "SupportList:" ++ cstring lineEnd)

/-- "Firmware layout for the CPE510/520". -/
def cpe510 : DeviceInfo where
  id := cstring "CPE510"
  vendor := some (cstring "CPE510(TP-LINK|UN|N300-5):1.0\r\n")
  supportList := cstring "SupportList:\r\n" ++ cstring "CPE510(TP-LINK|UN|N300-5):1.0\r\n" ++
    cstring "CPE510(TP-LINK|UN|N300-5):1.1\r\n" ++ cstring "CPE510(TP-LINK|UN|N300-5):1.1\r\n" ++
    cstring "CPE510(TP-LINK|US|N300-5):1.1\r\n" ++ cstring "CPE510(TP-LINK|EU|N300-5):1.1\r\n" ++
    cstring "CPE520(TP-LINK|UN|N300-5):1.1\r\n" ++ cstring "CPE520(TP-LINK|US|N300-5):1.1\r\n" ++
    cstring "CPE520(TP-LINK|EU|N300-5):1.1\r\n"
  supportTrail := 0xff
  softVer := none
  partitions :=
    [⟨cstring "fs-uboot", 0x00000, 0x20000⟩,
     ⟨cstring "partition-table", 0x20000, 0x02000⟩,
     ⟨cstring "default-mac", 0x30000, 0x00020⟩,
     ⟨cstring "product-info", 0x31100, 0x00100⟩,
     ⟨cstring "signature", 0x32000, 0x00400⟩,
     ⟨cstring "os-image", 0x40000, 0x1c0000⟩,
     ⟨cstring "file-system", 0x200000, 0x5b0000⟩,
     ⟨cstring "soft-version", 0x7b0000, 0x00100⟩,
     ⟨cstring "support-list", 0x7b1000, 0x00400⟩,
     ⟨cstring "user-config", 0x7c0000, 0x10000⟩,
     ⟨cstring "default-config", 0x7d0000, 0x10000⟩,
     ⟨cstring "log", 0x7e0000, 0x10000⟩,
     ⟨cstring "radio", 0x7f0000, 0x10000⟩]
  firstSysupgradePartition := cstring "os-image"
  lastSysupgradePartition := cstring "support-list"
  partitions_length := cpe210.partitions_length

/-- The WBS210: the layout of the CPE boards, with ids of its own. -/
def wbs210 : DeviceInfo where
  id := cstring "WBS210"
  vendor := some (cstring "CPE510(TP-LINK|UN|N300-5):1.0\r\n")
  supportList := cstring "SupportList:\r\n" ++ cstring "WBS210(TP-LINK|UN|N300-2):1.20\r\n" ++
    cstring "WBS210(TP-LINK|US|N300-2):1.20\r\n" ++ cstring "WBS210(TP-LINK|EU|N300-2):1.20\r\n"
  supportTrail := 0xff
  softVer := none
  partitions :=
    [⟨cstring "fs-uboot", 0x00000, 0x20000⟩,
     ⟨cstring "partition-table", 0x20000, 0x02000⟩,
     ⟨cstring "default-mac", 0x30000, 0x00020⟩,
     ⟨cstring "product-info", 0x31100, 0x00100⟩,
     ⟨cstring "signature", 0x32000, 0x00400⟩,
     ⟨cstring "os-image", 0x40000, 0x1c0000⟩,
     ⟨cstring "file-system", 0x200000, 0x5b0000⟩,
     ⟨cstring "soft-version", 0x7b0000, 0x00100⟩,
     ⟨cstring "support-list", 0x7b1000, 0x00400⟩,
     ⟨cstring "user-config", 0x7c0000, 0x10000⟩,
     ⟨cstring "default-config", 0x7d0000, 0x10000⟩,
     ⟨cstring "log", 0x7e0000, 0x10000⟩,
     ⟨cstring "radio", 0x7f0000, 0x10000⟩]
  firstSysupgradePartition := cstring "os-image"
  lastSysupgradePartition := cstring "support-list"
  partitions_length := cpe210.partitions_length

/-- The WBS510: the layout of the CPE boards, with ids of its own. -/
def wbs510 : DeviceInfo where
  id := cstring "WBS510"
  vendor := some (cstring "CPE510(TP-LINK|UN|N300-5):1.0\r\n")
  supportList := cstring "SupportList:\r\n" ++ cstring "WBS510(TP-LINK|UN|N300-5):1.20\r\n" ++
    cstring "WBS510(TP-LINK|US|N300-5):1.20\r\n" ++ cstring "WBS510(TP-LINK|EU|N300-5):1.20\r\n"
  supportTrail := 0xff
  softVer := none
  partitions :=
    [⟨cstring "fs-uboot", 0x00000, 0x20000⟩,
     ⟨cstring "partition-table", 0x20000, 0x02000⟩,
     ⟨cstring "default-mac", 0x30000, 0x00020⟩,
     ⟨cstring "product-info", 0x31100, 0x00100⟩,
     ⟨cstring "signature", 0x32000, 0x00400⟩,
     ⟨cstring "os-image", 0x40000, 0x1c0000⟩,
     ⟨cstring "file-system", 0x200000, 0x5b0000⟩,
     ⟨cstring "soft-version", 0x7b0000, 0x00100⟩,
     ⟨cstring "support-list", 0x7b1000, 0x00400⟩,
     ⟨cstring "user-config", 0x7c0000, 0x10000⟩,
     ⟨cstring "default-config", 0x7d0000, 0x10000⟩,
     ⟨cstring "log", 0x7e0000, 0x10000⟩,
     ⟨cstring "radio", 0x7f0000, 0x10000⟩]
  firstSysupgradePartition := cstring "os-image"
  lastSysupgradePartition := cstring "support-list"
  partitions_length := cpe210.partitions_length

/-- "Firmware layout for the C2600". -/
def c2600 : DeviceInfo where
  id := cstring "C2600"
  vendor := some (cstring "")
  supportList := products "\r\n" "Archer C2600" "1.0.0" ["00000000"]
  supportTrail := 0x00
  softVer := none
  partitions :=
    [⟨cstring "SBL1", 0x00000, 0x20000⟩,
     ⟨cstring "MIBIB", 0x20000, 0x20000⟩,
     ⟨cstring "SBL2", 0x40000, 0x20000⟩,
     ⟨cstring "SBL3", 0x60000, 0x30000⟩,
     ⟨cstring "DDRCONFIG", 0x90000, 0x10000⟩,
     ⟨cstring "SSD", 0xa0000, 0x10000⟩,
     ⟨cstring "TZ", 0xb0000, 0x30000⟩,
     ⟨cstring "RPM", 0xe0000, 0x20000⟩,
     ⟨cstring "fs-uboot", 0x100000, 0x70000⟩,
     ⟨cstring "uboot-env", 0x170000, 0x40000⟩,
     ⟨cstring "radio", 0x1b0000, 0x40000⟩,
     ⟨cstring "os-image", 0x1f0000, 0x200000⟩,
     ⟨cstring "file-system", 0x3f0000, 0x1b00000⟩,
     ⟨cstring "default-mac", 0x1ef0000, 0x00200⟩,
     ⟨cstring "pin", 0x1ef0200, 0x00200⟩,
     ⟨cstring "product-info", 0x1ef0400, 0x0fc00⟩,
     ⟨cstring "partition-table", 0x1f00000, 0x10000⟩,
     ⟨cstring "soft-version", 0x1f10000, 0x10000⟩,
     ⟨cstring "support-list", 0x1f20000, 0x10000⟩,
     ⟨cstring "profile", 0x1f30000, 0x10000⟩,
     ⟨cstring "default-config", 0x1f40000, 0x10000⟩,
     ⟨cstring "user-config", 0x1f50000, 0x40000⟩,
     ⟨cstring "qos-db", 0x1f90000, 0x40000⟩,
     ⟨cstring "usb-config", 0x1fd0000, 0x10000⟩,
     ⟨cstring "log", 0x1fe0000, 0x20000⟩]
  firstSysupgradePartition := cstring "os-image"
  lastSysupgradePartition := cstring "file-system"
  partitions_length := by decide

/-- "Firmware layout for the C25v1". -/
def archerC25V1 : DeviceInfo where
  id := cstring "ARCHER-C25-V1"
  vendor := none
  supportList := products "\n" "ArcherC25" "1.0.0" ["00000000", "55530000", "45550000"]
  supportTrail := 0x00
  softVer := some (cstring "soft_ver:1.0.0\n")
  partitions :=
    [⟨cstring "factory-boot", 0x00000, 0x20000⟩,
     ⟨cstring "fs-uboot", 0x20000, 0x10000⟩,
     ⟨cstring "os-image", 0x30000, 0x180000⟩,
     ⟨cstring "file-system", 0x1b0000, 0x620000⟩,
     ⟨cstring "user-config", 0x7d0000, 0x04000⟩,
     ⟨cstring "default-mac", 0x7e0000, 0x00100⟩,
     ⟨cstring "device-id", 0x7e0100, 0x00100⟩,
     ⟨cstring "extra-para", 0x7e0200, 0x00100⟩,
     ⟨cstring "pin", 0x7e0300, 0x00100⟩,
     ⟨cstring "support-list", 0x7e0400, 0x00400⟩,
     ⟨cstring "soft-version", 0x7e0800, 0x00400⟩,
     ⟨cstring "product-info", 0x7e0c00, 0x01400⟩,
     ⟨cstring "partition-table", 0x7e2000, 0x01000⟩,
     ⟨cstring "profile", 0x7e3000, 0x01000⟩,
     ⟨cstring "default-config", 0x7e4000, 0x04000⟩,
     ⟨cstring "merge-config", 0x7ec000, 0x02000⟩,
     ⟨cstring "qos-db", 0x7ee000, 0x02000⟩,
     ⟨cstring "radio", 0x7f0000, 0x10000⟩]
  firstSysupgradePartition := cstring "os-image"
  lastSysupgradePartition := cstring "file-system"
  partitions_length := by decide

/-- "Firmware layout for the C58v1". -/
def archerC58V1 : DeviceInfo where
  id := cstring "ARCHER-C58-V1"
  vendor := some (cstring "")
  supportList := products "\r\n" "Archer C58" "1.0.0" ["00000000", "45550000", "55530000"]
  supportTrail := 0x00
  softVer := some (cstring "soft_ver:1.0.0\n")
  partitions :=
    [⟨cstring "fs-uboot", 0x00000, 0x10000⟩,
     ⟨cstring "default-mac", 0x10000, 0x00200⟩,
     ⟨cstring "pin", 0x10200, 0x00200⟩,
     ⟨cstring "product-info", 0x10400, 0x00100⟩,
     ⟨cstring "partition-table", 0x10500, 0x00800⟩,
     ⟨cstring "soft-version", 0x11300, 0x00200⟩,
     ⟨cstring "support-list", 0x11500, 0x00100⟩,
     ⟨cstring "device-id", 0x11600, 0x00100⟩,
     ⟨cstring "profile", 0x11700, 0x03900⟩,
     ⟨cstring "default-config", 0x15000, 0x04000⟩,
     ⟨cstring "user-config", 0x19000, 0x04000⟩,
     ⟨cstring "os-image", 0x20000, 0x180000⟩,
     ⟨cstring "file-system", 0x1a0000, 0x648000⟩,
     ⟨cstring "certyficate", 0x7e8000, 0x08000⟩,
     ⟨cstring "radio", 0x7f0000, 0x10000⟩]
  firstSysupgradePartition := cstring "os-image"
  lastSysupgradePartition := cstring "file-system"
  partitions_length := by decide

/-- "Firmware layout for the C59v1". -/
def archerC59V1 : DeviceInfo where
  id := cstring "ARCHER-C59-V1"
  vendor := some (cstring "")
  supportList := products "\r\n" "Archer C59" "1.0.0" ["00000000", "45550000", "52550000",
    "55530000"]
  supportTrail := 0x00
  softVer := some (cstring "soft_ver:1.0.0\n")
  partitions :=
    [⟨cstring "fs-uboot", 0x00000, 0x10000⟩,
     ⟨cstring "default-mac", 0x10000, 0x00200⟩,
     ⟨cstring "pin", 0x10200, 0x00200⟩,
     ⟨cstring "device-id", 0x10400, 0x00100⟩,
     ⟨cstring "product-info", 0x10500, 0x0fb00⟩,
     ⟨cstring "os-image", 0x20000, 0x180000⟩,
     ⟨cstring "file-system", 0x1a0000, 0xcb0000⟩,
     ⟨cstring "partition-table", 0xe50000, 0x10000⟩,
     ⟨cstring "soft-version", 0xe60000, 0x10000⟩,
     ⟨cstring "support-list", 0xe70000, 0x10000⟩,
     ⟨cstring "profile", 0xe80000, 0x10000⟩,
     ⟨cstring "default-config", 0xe90000, 0x10000⟩,
     ⟨cstring "user-config", 0xea0000, 0x40000⟩,
     ⟨cstring "usb-config", 0xee0000, 0x10000⟩,
     ⟨cstring "certificate", 0xef0000, 0x10000⟩,
     ⟨cstring "qos-db", 0xf00000, 0x40000⟩,
     ⟨cstring "log", 0xfe0000, 0x10000⟩,
     ⟨cstring "radio", 0xff0000, 0x10000⟩]
  firstSysupgradePartition := cstring "os-image"
  lastSysupgradePartition := cstring "file-system"
  partitions_length := by decide

/-- "Firmware layout for the C60v1". -/
def archerC60V1 : DeviceInfo where
  id := cstring "ARCHER-C60-V1"
  vendor := some (cstring "")
  supportList := products "\r\n" "Archer C60" "1.0.0" ["00000000", "45550000", "55530000"]
  supportTrail := 0x00
  softVer := some (cstring "soft_ver:1.0.0\n")
  partitions :=
    [⟨cstring "fs-uboot", 0x00000, 0x10000⟩,
     ⟨cstring "default-mac", 0x10000, 0x00200⟩,
     ⟨cstring "pin", 0x10200, 0x00200⟩,
     ⟨cstring "product-info", 0x10400, 0x00100⟩,
     ⟨cstring "partition-table", 0x10500, 0x00800⟩,
     ⟨cstring "soft-version", 0x11300, 0x00200⟩,
     ⟨cstring "support-list", 0x11500, 0x00100⟩,
     ⟨cstring "device-id", 0x11600, 0x00100⟩,
     ⟨cstring "profile", 0x11700, 0x03900⟩,
     ⟨cstring "default-config", 0x15000, 0x04000⟩,
     ⟨cstring "user-config", 0x19000, 0x04000⟩,
     ⟨cstring "os-image", 0x20000, 0x180000⟩,
     ⟨cstring "file-system", 0x1a0000, 0x648000⟩,
     ⟨cstring "certyficate", 0x7e8000, 0x08000⟩,
     ⟨cstring "radio", 0x7f0000, 0x10000⟩]
  firstSysupgradePartition := cstring "os-image"
  lastSysupgradePartition := cstring "file-system"
  partitions_length := by decide

/-- "Firmware layout for the C60v2". -/
def archerC60V2 : DeviceInfo where
  id := cstring "ARCHER-C60-V2"
  vendor := some (cstring "")
  supportList := products "\r\n" "Archer C60" "2.0.0" ["42520000", "45550000", "55530000"]
  supportTrail := 0x00
  softVer := some (cstring "soft_ver:2.0.0\n")
  partitions :=
    [⟨cstring "factory-boot", 0x00000, 0x1fb00⟩,
     ⟨cstring "default-mac", 0x1fb00, 0x00200⟩,
     ⟨cstring "pin", 0x1fd00, 0x00100⟩,
     ⟨cstring "product-info", 0x1fe00, 0x00100⟩,
     ⟨cstring "device-id", 0x1ff00, 0x00100⟩,
     ⟨cstring "fs-uboot", 0x20000, 0x10000⟩,
     ⟨cstring "os-image", 0x30000, 0x180000⟩,
     ⟨cstring "file-system", 0x1b0000, 0x620000⟩,
     ⟨cstring "soft-version", 0x7d9500, 0x00100⟩,
     ⟨cstring "support-list", 0x7d9600, 0x00100⟩,
     ⟨cstring "extra-para", 0x7d9700, 0x00100⟩,
     ⟨cstring "profile", 0x7d9800, 0x03000⟩,
     ⟨cstring "default-config", 0x7dc800, 0x03000⟩,
     ⟨cstring "partition-table", 0x7df800, 0x00800⟩,
     ⟨cstring "user-config", 0x7e0000, 0x0c000⟩,
     ⟨cstring "certificate", 0x7ec000, 0x04000⟩,
     ⟨cstring "radio", 0x7f0000, 0x10000⟩]
  firstSysupgradePartition := cstring "os-image"
  lastSysupgradePartition := cstring "file-system"
  partitions_length := by decide

/-- "Firmware layout for the C5". -/
def archerC5V2 : DeviceInfo where
  id := cstring "ARCHER-C5-V2"
  vendor := some (cstring "")
  supportList := products "\r\n" "ArcherC5" "2.0.0" ["00000000", "55530000", "4A500000"]
  supportTrail := 0x00
  softVer := none
  partitions :=
    [⟨cstring "fs-uboot", 0x00000, 0x40000⟩,
     ⟨cstring "os-image", 0x40000, 0x200000⟩,
     ⟨cstring "file-system", 0x240000, 0xc00000⟩,
     ⟨cstring "default-mac", 0xe40000, 0x00200⟩,
     ⟨cstring "pin", 0xe40200, 0x00200⟩,
     ⟨cstring "product-info", 0xe40400, 0x00200⟩,
     ⟨cstring "partition-table", 0xe50000, 0x10000⟩,
     ⟨cstring "soft-version", 0xe60000, 0x00200⟩,
     ⟨cstring "support-list", 0xe61000, 0x0f000⟩,
     ⟨cstring "profile", 0xe70000, 0x10000⟩,
     ⟨cstring "default-config", 0xe80000, 0x10000⟩,
     ⟨cstring "user-config", 0xe90000, 0x50000⟩,
     ⟨cstring "log", 0xee0000, 0x100000⟩,
     ⟨cstring "radio_bk", 0xfe0000, 0x10000⟩,
     ⟨cstring "radio", 0xff0000, 0x10000⟩]
  firstSysupgradePartition := cstring "os-image"
  lastSysupgradePartition := cstring "file-system"
  partitions_length := by decide

/-- "Firmware layout for the C7 v5". -/
def archerC7V5 : DeviceInfo where
  id := cstring "ARCHER-C7-V5"
  vendor := none
  supportList := products "\n" "Archer C7" "5.0.0" ["00000000", "55530000"]
  supportTrail := 0x00
  softVer := some (cstring "soft_ver:1.0.0\n")
  partitions :=
    [⟨cstring "factory-boot", 0x00000, 0x20000⟩,
     ⟨cstring "fs-uboot", 0x20000, 0x20000⟩,
     ⟨cstring "partition-table", 0x40000, 0x10000⟩,
     ⟨cstring "radio", 0x50000, 0x10000⟩,
     ⟨cstring "default-mac", 0x60000, 0x00200⟩,
     ⟨cstring "pin", 0x60200, 0x00200⟩,
     ⟨cstring "device-id", 0x60400, 0x00100⟩,
     ⟨cstring "product-info", 0x60500, 0x0fb00⟩,
     ⟨cstring "soft-version", 0x70000, 0x01000⟩,
     ⟨cstring "extra-para", 0x71000, 0x01000⟩,
     ⟨cstring "support-list", 0x72000, 0x0a000⟩,
     ⟨cstring "profile", 0x7c000, 0x04000⟩,
     ⟨cstring "user-config", 0x80000, 0x40000⟩,
     ⟨cstring "os-image", 0xc0000, 0x180000⟩,
     ⟨cstring "file-system", 0x240000, 0xd80000⟩,
     ⟨cstring "log", 0xfc0000, 0x20000⟩,
     ⟨cstring "certificate", 0xfe0000, 0x10000⟩,
     ⟨cstring "default-config", 0xff0000, 0x10000⟩]
  firstSysupgradePartition := cstring "os-image"
  lastSysupgradePartition := cstring "file-system"
  partitions_length := by decide

/-- "Firmware layout for the C9". -/
def archerC9 : DeviceInfo where
  id := cstring "ARCHERC9"
  vendor := some (cstring "")
  supportList := products "\n" "ArcherC9" "1.0.0" ["00000000"]
  supportTrail := 0x00
  softVer := none
  partitions :=
    [⟨cstring "fs-uboot", 0x00000, 0x40000⟩,
     ⟨cstring "os-image", 0x40000, 0x200000⟩,
     ⟨cstring "file-system", 0x240000, 0xc00000⟩,
     ⟨cstring "default-mac", 0xe40000, 0x00200⟩,
     ⟨cstring "pin", 0xe40200, 0x00200⟩,
     ⟨cstring "product-info", 0xe40400, 0x00200⟩,
     ⟨cstring "partition-table", 0xe50000, 0x10000⟩,
     ⟨cstring "soft-version", 0xe60000, 0x00200⟩,
     ⟨cstring "support-list", 0xe61000, 0x0f000⟩,
     ⟨cstring "profile", 0xe70000, 0x10000⟩,
     ⟨cstring "default-config", 0xe80000, 0x10000⟩,
     ⟨cstring "user-config", 0xe90000, 0x50000⟩,
     ⟨cstring "log", 0xee0000, 0x100000⟩,
     ⟨cstring "radio_bk", 0xfe0000, 0x10000⟩,
     ⟨cstring "radio", 0xff0000, 0x10000⟩]
  firstSysupgradePartition := cstring "os-image"
  lastSysupgradePartition := cstring "file-system"
  partitions_length := by decide

/-- "Firmware layout for the TL-WA850RE v2". -/
def tlwa850Rev2 : DeviceInfo where
  id := cstring "TLWA850REV2"
  vendor := some (cstring "")
  supportList := products "\n" "TL-WA850RE" "2.0.0" ["55530000", "00000000", "55534100",
    "45550000", "4B520000", "42520000", "4A500000", "43410000", "41550000", "52550000"]
  supportTrail := 0x00
  softVer := none
  partitions :=
    [⟨cstring "fs-uboot", 0x00000, 0x20000⟩,
     ⟨cstring "os-image", 0x20000, 0x150000⟩,
     ⟨cstring "file-system", 0x170000, 0x240000⟩,
     ⟨cstring "partition-table", 0x3b0000, 0x02000⟩,
     ⟨cstring "default-mac", 0x3c0000, 0x00020⟩,
     ⟨cstring "pin", 0x3c0100, 0x00020⟩,
     ⟨cstring "product-info", 0x3c1000, 0x01000⟩,
     ⟨cstring "soft-version", 0x3c2000, 0x00100⟩,
     ⟨cstring "support-list", 0x3c3000, 0x01000⟩,
     ⟨cstring "profile", 0x3c4000, 0x08000⟩,
     ⟨cstring "user-config", 0x3d0000, 0x10000⟩,
     ⟨cstring "default-config", 0x3e0000, 0x10000⟩,
     ⟨cstring "radio", 0x3f0000, 0x10000⟩]
  firstSysupgradePartition := cstring "os-image"
  lastSysupgradePartition := cstring "file-system"
  partitions_length := by decide

/-- "Firmware layout for the TL-WA855RE v1". -/
def tlwa855Rev1 : DeviceInfo where
  id := cstring "TLWA855REV1"
  vendor := some (cstring "")
  supportList := products "\n" "TL-WA855RE" "1.0.0" ["00000000", "55530000", "45550000",
    "4B520000", "42520000", "4A500000", "43410000", "41550000", "52550000"]
  supportTrail := 0x00
  softVer := none
  partitions :=
    [⟨cstring "fs-uboot", 0x00000, 0x20000⟩,
     ⟨cstring "os-image", 0x20000, 0x150000⟩,
     ⟨cstring "file-system", 0x170000, 0x240000⟩,
     ⟨cstring "partition-table", 0x3b0000, 0x02000⟩,
     ⟨cstring "default-mac", 0x3c0000, 0x00020⟩,
     ⟨cstring "pin", 0x3c0100, 0x00020⟩,
     ⟨cstring "product-info", 0x3c1000, 0x01000⟩,
     ⟨cstring "soft-version", 0x3c2000, 0x00100⟩,
     ⟨cstring "support-list", 0x3c3000, 0x01000⟩,
     ⟨cstring "profile", 0x3c4000, 0x08000⟩,
     ⟨cstring "user-config", 0x3d0000, 0x10000⟩,
     ⟨cstring "default-config", 0x3e0000, 0x10000⟩,
     ⟨cstring "radio", 0x3f0000, 0x10000⟩]
  firstSysupgradePartition := cstring "os-image"
  lastSysupgradePartition := cstring "file-system"
  partitions_length := by decide

/-- "Firmware layout for the TL-WR1043 v5". -/
def tlwr1043nV5 : DeviceInfo where
  id := cstring "TLWR1043NV5"
  vendor := some (cstring "")
  supportList := products "\n" "TL-WR1043N" "5.0.0" ["45550000", "55530000"]
  supportTrail := 0x00
  softVer := some (cstring "soft_ver:1.0.0\n")
  partitions :=
    [⟨cstring "factory-boot", 0x00000, 0x20000⟩,
     ⟨cstring "fs-uboot", 0x20000, 0x20000⟩,
     ⟨cstring "os-image", 0x40000, 0x180000⟩,
     ⟨cstring "file-system", 0x1c0000, 0xd40000⟩,
     ⟨cstring "default-mac", 0xf00000, 0x00200⟩,
     ⟨cstring "pin", 0xf00200, 0x00200⟩,
     ⟨cstring "device-id", 0xf00400, 0x00100⟩,
     ⟨cstring "product-info", 0xf00500, 0x0fb00⟩,
     ⟨cstring "soft-version", 0xf10000, 0x01000⟩,
     ⟨cstring "extra-para", 0xf11000, 0x01000⟩,
     ⟨cstring "support-list", 0xf12000, 0x0a000⟩,
     ⟨cstring "profile", 0xf1c000, 0x04000⟩,
     ⟨cstring "default-config", 0xf20000, 0x10000⟩,
     ⟨cstring "user-config", 0xf30000, 0x40000⟩,
     ⟨cstring "qos-db", 0xf70000, 0x40000⟩,
     ⟨cstring "certificate", 0xfb0000, 0x10000⟩,
     ⟨cstring "partition-table", 0xfc0000, 0x10000⟩,
     ⟨cstring "log", 0xfd0000, 0x20000⟩,
     ⟨cstring "radio", 0xff0000, 0x10000⟩]
  firstSysupgradePartition := cstring "os-image"
  lastSysupgradePartition := cstring "file-system"
  partitions_length := by decide

/-- "Firmware layout for the TL-WR1043 v4". -/
def tlwr1043ndV4 : DeviceInfo where
  id := cstring "TLWR1043NDV4"
  vendor := some (cstring "")
  supportList := products "\n" "TL-WR1043ND" "4.0.0" ["45550000"]
  supportTrail := 0x00
  softVer := none
  partitions :=
    [⟨cstring "fs-uboot", 0x00000, 0x20000⟩,
     ⟨cstring "os-image", 0x20000, 0x180000⟩,
     ⟨cstring "file-system", 0x1a0000, 0xdb0000⟩,
     ⟨cstring "default-mac", 0xf50000, 0x00200⟩,
     ⟨cstring "pin", 0xf50200, 0x00200⟩,
     ⟨cstring "product-info", 0xf50400, 0x0fc00⟩,
     ⟨cstring "soft-version", 0xf60000, 0x0b000⟩,
     ⟨cstring "support-list", 0xf6b000, 0x04000⟩,
     ⟨cstring "profile", 0xf70000, 0x04000⟩,
     ⟨cstring "default-config", 0xf74000, 0x0b000⟩,
     ⟨cstring "user-config", 0xf80000, 0x40000⟩,
     ⟨cstring "partition-table", 0xfc0000, 0x10000⟩,
     ⟨cstring "log", 0xfd0000, 0x20000⟩,
     ⟨cstring "radio", 0xff0000, 0x10000⟩]
  firstSysupgradePartition := cstring "os-image"
  lastSysupgradePartition := cstring "file-system"
  partitions_length := by decide

/-- "Firmware layout for the TL-WR902AC v1". -/
def tlwr902acV1 : DeviceInfo where
  id := cstring "TL-WR902AC-V1"
  vendor := some (cstring "")
  supportList := products "\n" "TL-WR902AC" "1.0.0" ["45550000", "55530000"]
  supportTrail := 0x00
  softVer := none
  partitions :=
    [⟨cstring "fs-uboot", 0x00000, 0x20000⟩,
     ⟨cstring "os-image", 0x20000, 0x180000⟩,
     ⟨cstring "file-system", 0x1a0000, 0x5b0000⟩,
     ⟨cstring "default-mac", 0x750000, 0x00200⟩,
     ⟨cstring "pin", 0x750200, 0x00200⟩,
     ⟨cstring "product-info", 0x750400, 0x0fc00⟩,
     ⟨cstring "soft-version", 0x760000, 0x0b000⟩,
     ⟨cstring "support-list", 0x76b000, 0x04000⟩,
     ⟨cstring "profile", 0x770000, 0x04000⟩,
     ⟨cstring "default-config", 0x774000, 0x0b000⟩,
     ⟨cstring "user-config", 0x780000, 0x40000⟩,
     ⟨cstring "partition-table", 0x7c0000, 0x10000⟩,
     ⟨cstring "log", 0x7d0000, 0x20000⟩,
     ⟨cstring "radio", 0x7f0000, 0x10000⟩]
  firstSysupgradePartition := cstring "os-image"
  lastSysupgradePartition := cstring "file-system"
  partitions_length := by decide

/-- "Firmware layout for the TL-WR942N V1". -/
def tlwr942nV1 : DeviceInfo where
  id := cstring "TLWR942NV1"
  vendor := some (cstring "")
  supportList := products "\r\n" "TL-WR942N" "1.0.0" ["00000000", "52550000"]
  supportTrail := 0x00
  softVer := none
  partitions :=
    [⟨cstring "fs-uboot", 0x00000, 0x20000⟩,
     ⟨cstring "os-image", 0x20000, 0x180000⟩,
     ⟨cstring "file-system", 0x1a0000, 0xca0000⟩,
     ⟨cstring "default-mac", 0xe40000, 0x00200⟩,
     ⟨cstring "pin", 0xe40200, 0x00200⟩,
     ⟨cstring "product-info", 0xe40400, 0x0fc00⟩,
     ⟨cstring "partition-table", 0xe50000, 0x10000⟩,
     ⟨cstring "soft-version", 0xe60000, 0x10000⟩,
     ⟨cstring "support-list", 0xe70000, 0x10000⟩,
     ⟨cstring "profile", 0xe80000, 0x10000⟩,
     ⟨cstring "default-config", 0xe90000, 0x10000⟩,
     ⟨cstring "user-config", 0xea0000, 0x40000⟩,
     ⟨cstring "qos-db", 0xee0000, 0x40000⟩,
     ⟨cstring "certificate", 0xf20000, 0x10000⟩,
     ⟨cstring "usb-config", 0xfb0000, 0x10000⟩,
     ⟨cstring "log", 0xfc0000, 0x20000⟩,
     ⟨cstring "radio-bk", 0xfe0000, 0x10000⟩,
     ⟨cstring "radio", 0xff0000, 0x10000⟩]
  firstSysupgradePartition := cstring "os-image"
  lastSysupgradePartition := cstring "file-system"
  partitions_length := by decide

/-- "Firmware layout for the RE350 v1". -/
def re350V1 : DeviceInfo where
  id := cstring "RE350-V1"
  vendor := some (cstring "")
  supportList := products "\n" "RE350" "1.0.0" ["45550000", "00000000", "41550000", "55530000",
    "43410000", "4b520000", "4a500000"]
  supportTrail := 0x00
  softVer := none
  partitions :=
    [⟨cstring "fs-uboot", 0x00000, 0x20000⟩,
     ⟨cstring "os-image", 0x20000, 0x1c0000⟩,
     ⟨cstring "file-system", 0x1e0000, 0x420000⟩,
     ⟨cstring "partition-table", 0x600000, 0x02000⟩,
     ⟨cstring "default-mac", 0x610000, 0x00020⟩,
     ⟨cstring "pin", 0x610100, 0x00020⟩,
     ⟨cstring "product-info", 0x611100, 0x01000⟩,
     ⟨cstring "soft-version", 0x620000, 0x01000⟩,
     ⟨cstring "support-list", 0x621000, 0x01000⟩,
     ⟨cstring "profile", 0x622000, 0x08000⟩,
     ⟨cstring "user-config", 0x630000, 0x10000⟩,
     ⟨cstring "default-config", 0x640000, 0x10000⟩,
     ⟨cstring "radio", 0x7f0000, 0x10000⟩]
  firstSysupgradePartition := cstring "os-image"
  lastSysupgradePartition := cstring "file-system"
  partitions_length := by decide

/-- "Firmware layout for the RE355". -/
def re355 : DeviceInfo where
  id := cstring "RE355"
  vendor := some (cstring "")
  supportList := products "\r\n" "RE355" "1.0.0" ["00000000", "55530000", "45550000", "4A500000",
    "43410000", "41550000", "4B520000", "55534100"]
  supportTrail := 0x00
  softVer := none
  partitions :=
    [⟨cstring "fs-uboot", 0x00000, 0x20000⟩,
     ⟨cstring "os-image", 0x20000, 0x180000⟩,
     ⟨cstring "file-system", 0x1a0000, 0x460000⟩,
     ⟨cstring "partition-table", 0x600000, 0x02000⟩,
     ⟨cstring "default-mac", 0x610000, 0x00020⟩,
     ⟨cstring "pin", 0x610100, 0x00020⟩,
     ⟨cstring "product-info", 0x611100, 0x01000⟩,
     ⟨cstring "soft-version", 0x620000, 0x01000⟩,
     ⟨cstring "support-list", 0x621000, 0x01000⟩,
     ⟨cstring "profile", 0x622000, 0x08000⟩,
     ⟨cstring "user-config", 0x630000, 0x10000⟩,
     ⟨cstring "default-config", 0x640000, 0x10000⟩,
     ⟨cstring "radio", 0x7f0000, 0x10000⟩]
  firstSysupgradePartition := cstring "os-image"
  lastSysupgradePartition := cstring "file-system"
  partitions_length := by decide

/-- "Firmware layout for the RE450". -/
def re450 : DeviceInfo where
  id := cstring "RE450"
  vendor := some (cstring "")
  supportList := products "\r\n" "RE450" "1.0.0" ["00000000", "55530000", "45550000", "4A500000",
    "43410000", "41550000", "4B520000", "55534100"]
  supportTrail := 0x00
  softVer := none
  partitions :=
    [⟨cstring "fs-uboot", 0x00000, 0x20000⟩,
     ⟨cstring "os-image", 0x20000, 0x180000⟩,
     ⟨cstring "file-system", 0x1a0000, 0x460000⟩,
     ⟨cstring "partition-table", 0x600000, 0x02000⟩,
     ⟨cstring "default-mac", 0x610000, 0x00020⟩,
     ⟨cstring "pin", 0x610100, 0x00020⟩,
     ⟨cstring "product-info", 0x611100, 0x01000⟩,
     ⟨cstring "soft-version", 0x620000, 0x01000⟩,
     ⟨cstring "support-list", 0x621000, 0x01000⟩,
     ⟨cstring "profile", 0x622000, 0x08000⟩,
     ⟨cstring "user-config", 0x630000, 0x10000⟩,
     ⟨cstring "default-config", 0x640000, 0x10000⟩,
     ⟨cstring "radio", 0x7f0000, 0x10000⟩]
  firstSysupgradePartition := cstring "os-image"
  lastSysupgradePartition := cstring "file-system"
  partitions_length := by decide

/-- `boards` -/
def boards : List DeviceInfo :=
  [cpe210, cpe510, wbs210, wbs510, c2600, archerC25V1, archerC58V1, archerC59V1, archerC60V1,
    archerC60V2, archerC5V2, archerC7V4, archerC7V5, archerC9, eap120, tlwa850Rev2, tlwa855Rev1,
    tlwr1043nV5, tlwr1043ndV4, tlwr902acV1, tlwr942nV1, re350V1, re355, re450]

/-- `find_board` -/
def findBoard (id : CString) : Option DeviceInfo :=
  boards.find? fun board => sameIgnoringCase id board.id

/-! ## The table is sound

  What has to be checked of every entry, once, by evaluation. -/

/-- The room that the flash of a board has for a partition. -/
def room (info : DeviceInfo) (name : CString) : Nat :=
  match info.partitions.find? fun f => f.name = name with
  | some f => f.size.toNat
  | none => 0

/-- What an entry of the table has to meet for the rest of the tool. -/
@[mk_iff]
structure Supported (info : DeviceInfo) : Prop where
  nonempty : info.partitions ≠ []
  distinct : (info.partitions.map FlashPartition.name).Nodup
  sorted : info.partitions.Pairwise fun f g => f.base.toNat + f.size.toNat ≤ g.base.toNat
  named : ∀ f ∈ info.partitions, f.name.bytes ≠ [] ∧ Readable f.name
  small : ∀ f ∈ info.partitions, f.base.toNat + f.size.toNat ≤ 0x2000000
  adjacent : ∃ i < maxPartitions, ∃ osImage ∈ info.partitions[i]?,
    ∃ fileSystem ∈ info.partitions[i + 1]?, osImage.name = cstring "os-image" ∧
      fileSystem.name = cstring "file-system" ∧
      osImage.base.toNat + osImage.size.toNat = fileSystem.base.toNat
  first : info.firstSysupgradePartition = cstring "os-image"
  text : (flashText info.partitions).length < 0x7fc
  vendor : ∀ vendor ∈ info.vendor, vendor.bytes.length ≤ 0xffc
  softVer : ∀ softVer ∈ info.softVer, softVer.bytes.length < 2 ^ 31
  tableRoom : 0x800 ≤ room info (cstring "partition-table")
  versionRoom : (softVersion sampleStamp info).size ≤ room info (cstring "soft-version")
  supportRoom : info.supportList.bytes.length + 9 ≤ room info (cstring "support-list")

instance (info : DeviceInfo) : Decidable (Supported info) :=
  decidable_of_iff' _ (supported_iff info)

/-- The whole table is checked by evaluation, once. -/
theorem supported_all : (boards.all fun info => decide (Supported info)) = true := by
  decide +kernel

/-- Every board of the table is supported. -/
theorem boards_supported {info : DeviceInfo} (h : info ∈ boards) : Supported info :=
  of_decide_eq_true (List.all_eq_true.mp supported_all info h)

/-- No two ids differ in case only. -/
theorem boards_ids : (boards.map fun info => info.id.bytes.map toLower).Nodup := by decide +kernel

/-- A board is found under its own id, whatever the case of the letters. -/
theorem findBoard_of_mem {id : CString} {info : DeviceInfo} (hmem : info ∈ boards)
    (hid : sameIgnoringCase id info.id = true) : findBoard id = some info := by
  have hfind : (boards.find? fun board =>
      decide (board.id.bytes.map toLower = info.id.bytes.map toLower)) = some info :=
    find?_of_nodup boards_ids hmem
  have hsame : (fun board : DeviceInfo => sameIgnoringCase id board.id) =
      fun board => decide (board.id.bytes.map toLower = info.id.bytes.map toLower) := by
    funext board
    rw [sameIgnoringCase, of_decide_eq_true hid]
    exact decide_eq_decide.mpr eq_comm
  rw [findBoard, hsame]
  exact hfind

/-- **`find_board` finds the one board with that id**, in any case of its letters. -/
theorem findBoard_iff (id : CString) (info : DeviceInfo) :
    findBoard id = some info ↔ info ∈ boards ∧ sameIgnoringCase id info.id := by
  constructor
  · intro h
    exact ⟨List.mem_of_find?_eq_some h,
      List.find?_some (p := fun board : DeviceInfo => sameIgnoringCase id board.id) h⟩
  · rintro ⟨hmem, hid⟩
    exact findBoard_of_mem hmem hid

theorem mem_boards_archerC7V4 : archerC7V4 ∈ boards := by
  unfold boards
  simp only [List.mem_cons, true_or, or_true]

/-- **A board's table reads back**, from wherever it stands in a file, as the board's partitions. -/
theorem boards_table {info : DeviceInfo} (h : info ∈ boards) (fresh : Nat → UInt8) :
    ∃ table, makePartitionTable fresh info.partitions = .ok table ∧
      table.size ≤ room info (cstring "partition-table") ∧
      ∀ (stale : Nat → UInt8) (file tail : Bytes) (e : FlashPartition),
        file.drop (e.base.toNat + 0x1014) = table.data ++ tail →
          readPartitionTable stale file (0x1014 + e.base.toNat + 4) maxPartitions .flash =
            .ok (some info.partitions) := by
  have hinfo := boards_supported h
  obtain ⟨table, htable⟩ := (makePartitionTable_isOk_iff fresh info.partitions).mpr hinfo.text
  refine ⟨table, htable, ?_, ?_⟩
  · rw [size_partitionTable htable]
    exact hinfo.tableRoom
  · intro stale file tail e hfile
    exact factory_flashTable stale htable hinfo.nonempty (fun f hf => (hinfo.named f hf).2)
      info.partitions_length hfile

/-- The Archer C7 v4's table, at the head of a file. -/
theorem boards_table_archerC7V4 : ∃ table,
    makePartitionTable (fun _ => 0xcc) archerC7V4.partitions = .ok table ∧
      readPartitionTable (fun _ => 0xcc) (List.replicate 0x1014 0 ++ table.data) 0x1018 maxPartitions
        .flash = .ok (some archerC7V4.partitions) := by
  obtain ⟨table, htable, -, hread⟩ := boards_table mem_boards_archerC7V4 fun _ => 0xcc
  refine ⟨table, htable, hread _ _ [] ⟨cstring "partition-table", 0, 0⟩ ?_⟩
  rw [List.append_nil]
  exact List.drop_left' List.length_replicate

end Safewrt.Safeloader
