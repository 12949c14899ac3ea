/-
  What genesis leaves on the file system (genesis/genesis-gf/src/main.rs, `main`).

  1. **`main`**: the configuration file is read and parsed, then nine files are opened and written
     one after the other.  `File::create` empties a file; `OpenOptions` with `create` and `write`
     does not.  Wherever the code unwraps an error, `main` is `none`.

  2. `writeFiles_get`: after a run every file is what its block makes of the file before, and no
     other file changed.  It rests on the nine paths being different (`paths_nodup`).

  3. **`main_exact_iff`**: every file holds what was rendered if the old /etc/rc.local, the one
     file that is not emptied, was not longer than the new one.

  What a path holds is a list of bytes, or nothing.  The parser of toml, the identity of the device
  and the answer of the system to each open are given by a `World`, so the results hold for every
  parser.  The modes of the files are left out.
-/
import Safewrt.Genesis.Config
import Mathlib.Logic.Function.Basic

namespace Safewrt.Genesis

open Safewrt.Lib

/-! ## Files -/

/-- The contents of a file. -/
abbrev Bytes := List UInt8

/-- The content of each file, where it exists. -/
abbrev Fs := Text → Option Bytes

/-- How `main` opens a file to write. -/
inductive Opening
  | create    -- `File::create`
  | keep      -- `OpenOptions::new().create(true).write(true)`
  deriving Repr, DecidableEq

/-- The file after it is opened. -/
def Opening.opened : Opening → Option Bytes → Bytes
  | .create, _ => []
  | .keep, old => old.getD []

/-- `write_all` at `pos`: the file and the new position. -/
def writeAll (file : Bytes × Nat) (bytes : Bytes) : Bytes × Nat :=
  (file.1.take file.2 ++ bytes ++ file.1.drop (file.2 + bytes.length), file.2 + bytes.length)

/-- One block of `main`: a file, and the buffers that are written to it. -/
structure Block where
  path : Text
  opening : Opening
  buffers : List Bytes
  deriving Repr, DecidableEq

/-- The file after the block. -/
def Block.result (b : Block) (old : Option Bytes) : Bytes :=
  (b.buffers.foldl writeAll (b.opening.opened old, 0)).1

/-- What the block renders. -/
def Block.content (b : Block) : Bytes := b.buffers.flatten

/-! ## `main` -/

/-- The first key of `authorized_keys`. -/
def sshRsaKey : Text :=
  ("ssh-rsa AAAAB3NzaC1yc2EAAAADAQABAAABAQC55PtSpE2uexmJ05bxtdcI13skU4rYwQWpJIIpZ6++TivIPKR0V++V" ++
    "bDdwQnN6bZeUfBUa3ggMzk16+GHPB3ILT0bGn5hiki763/aouffjtnNrl3WIziS8bUaFnNdMTb+8akRiVmnfdfRJ+vWE" ++
    "32KRR88QWAWVkfI+sFD4OewvYNGsIQk0bPhQNSUz7yj3uR8ht7pzVGXwrbuMPV3DaH2IKnfaeGYx9QS/q1PheXulPgde" ++
    "TcB79eEGUte9P2EWnS4BFMMywJog8MDDRC4VpXZIK6nVaXblJoVprAI+oEoIGyOy8Qg3VApIdrkMQljKyl/ofXkkFy7A" ++
    "GxaRdd4CBFoh aep@nightbringer").toList

/-- The second one. -/
def sshEd25519Key : Text :=
  ("ssh-ed25519 AAAAC3NzaC1lZDI1NTE5AAAAIL414g0DkIykmS8s6wC9bJ3jvmFpA3jVOPp6bZIxTUQX" ++
    " aep@u4").toList

/-- The one file that is opened without being emptied. -/
def rcLocal : Text := "/etc/rc.local".toList

/-- The blocks of `main`; `identity` is what `get_identity` returns. -/
def blocks (config : Config) (identity : Option Text) : List Block :=
  [⟨"/etc/config/wireless".toList, .create, [asBytes (tplConfigWireless config)]⟩,
    ⟨"/etc/config/network".toList, .create, [asBytes tplConfigNetwork]⟩,
    ⟨"/etc/config/firewall".toList, .create, [asBytes tplConfigFirewall]⟩,
    ⟨"/etc/config/dhcp".toList, .create, [asBytes tplConfigDhcp]⟩,
    ⟨"/etc/config/system".toList, .create,
      [asBytes (tplConfigSystem (identity.getD "unidentified.gf".toList))]⟩,
    ⟨"/etc/config/dropbear".toList, .create, [asBytes tplConfigDropbear]⟩,
    ⟨"/etc/sentry.url".toList, .create, [asBytes config.captif.url]⟩,
    ⟨rcLocal, .keep, [asBytes tplRcLocal]⟩,
    ⟨"/etc/dropbear/authorized_keys".toList, .create,
      [asBytes sshRsaKey, asBytes sshEd25519Key]⟩]

/-- The paths, whatever the configuration. -/
def paths : List Text :=
  ["/etc/config/wireless".toList, "/etc/config/network".toList, "/etc/config/firewall".toList,
    "/etc/config/dhcp".toList, "/etc/config/system".toList, "/etc/config/dropbear".toList,
    "/etc/sentry.url".toList, rcLocal, "/etc/dropbear/authorized_keys".toList]

/-- What `main` gets from outside: its argument, the parser of the configuration, the identity of
    the device, and the files that cannot be opened or written. -/
structure World where
  arg : Option Text
  fromSlice : Bytes → Option Config   -- `toml::from_slice`
  identity : Option Text              -- `get_identity`
  fails : Text → Bool

/-- Each block in turn, until one fails. -/
def writeFiles (fails : Text → Bool) : List Block → Fs → Option Fs
  | [], fs => some fs
  | b :: bs, fs =>
    if fails b.path then none
    else writeFiles fails bs (Function.update fs b.path (some (b.result (fs b.path))))

/-- The configuration that `main` reads. -/
def readConfig (w : World) (fs : Fs) : Option Config :=
  w.arg.bind fun path => (fs path).bind w.fromSlice

/-- `main` -/
def main (w : World) (fs : Fs) : Option Fs :=
  (readConfig w fs).bind fun config => writeFiles w.fails (blocks config w.identity) fs

/-! ## One file -/

/-- Writing on from where the last buffer ended, over what is left of the old file. -/
theorem foldl_writeAll (buffers : List Bytes) : ∀ written old : Bytes,
    (buffers.foldl writeAll (written ++ old, written.length)).1 =
      written ++ buffers.flatten ++ old.drop buffers.flatten.length := by
  induction buffers with
  | nil =>
    intro written old
    simp
  | cons bytes buffers ih =>
    intro written old
    have hfirst : writeAll (written ++ old, written.length) bytes =
        ((written ++ bytes) ++ old.drop bytes.length, (written ++ bytes).length) := by
      unfold writeAll
      rw [List.take_left, List.drop_append, List.drop_eq_nil_of_le (by omega), List.nil_append,
        Nat.add_sub_cancel_left, List.length_append]
    rw [List.foldl_cons, hfirst, ih, List.flatten_cons, List.drop_drop, List.length_append,
      List.append_assoc written]

/-- **A block writes its content over the file it opened.** -/
theorem Block.result_eq (b : Block) (old : Option Bytes) :
    b.result old = b.content ++ (b.opening.opened old).drop b.content.length := by
  have h := foldl_writeAll b.buffers [] (b.opening.opened old)
  rw [List.nil_append, List.nil_append] at h
  exact h

/-- A file that was emptied holds what was rendered, whatever it held before. -/
theorem Block.result_create {b : Block} (h : b.opening = .create) (old : Option Bytes) :
    b.result old = b.content := by
  rw [b.result_eq, h]
  show _ ++ List.drop _ [] = _
  rw [List.drop_nil, List.append_nil]

/-- A file that is not emptied keeps the end of the old one. -/
theorem Block.result_keep_iff {b : Block} (h : b.opening = .keep) (old : Option Bytes) :
    b.result old = b.content ↔ (old.getD []).length ≤ b.content.length := by
  rw [b.result_eq, h, List.append_right_eq_self, List.drop_eq_nil_iff]
  rfl

/-! ## All of them -/

/-- A file that no block names is not touched, by induction on the blocks. -/
theorem writeFiles_other {fails : Text → Bool} {path : Text} (bs : List Block) :
    ∀ {fs fs' : Fs}, writeFiles fails bs fs = some fs' → path ∉ bs.map Block.path →
      fs' path = fs path := by
  induction bs with
  | nil =>
    intro fs fs' h _
    rw [Option.some.inj h]
  | cons b bs ih =>
    intro fs fs' h hpath
    rw [List.map_cons, List.mem_cons, not_or] at hpath
    unfold writeFiles at h
    split at h
    · exact absurd h (by simp)
    · rw [ih h hpath.2]
      exact Function.update_of_ne hpath.1 _ _

/-- **Every block's file is what the block made of it.** -/
theorem writeFiles_get {fails : Text → Bool} (bs : List Block) : ∀ {fs fs' : Fs},
    writeFiles fails bs fs = some fs' → (bs.map Block.path).Nodup →
    ∀ b ∈ bs, fs' b.path = some (b.result (fs b.path)) := by
  induction bs with
  | nil =>
    intro fs fs' _ _ b hb
    exact absurd hb List.not_mem_nil
  | cons a bs ih =>
    intro fs fs' h hnodup b hb
    rw [List.map_cons, List.nodup_cons] at hnodup
    unfold writeFiles at h
    split at h
    · exact absurd h (by simp)
    rcases List.mem_cons.mp hb with rfl | hb
    · rw [writeFiles_other bs h hnodup.1]
      exact Function.update_self _ _ _
    · have hne : b.path ≠ a.path := by
        intro heq
        exact hnodup.1 (heq ▸ List.mem_map_of_mem hb)
      rw [ih h hnodup.2 b hb, Function.update_of_ne hne]

/-- The nine paths, in the order in which they are written. -/
theorem blocks_paths (config : Config) (identity : Option Text) :
    (blocks config identity).map Block.path = paths := rfl

theorem paths_nodup : paths.Nodup := by decide

/-- The block of /etc/rc.local. -/
def rcLocalBlock : Block := ⟨rcLocal, .keep, [asBytes tplRcLocal]⟩

theorem rcLocalBlock_content : rcLocalBlock.content = asBytes tplRcLocal := List.append_nil _

/-- Every other block empties its file. -/
theorem blocks_opening {config : Config} {identity : Option Text} {b : Block}
    (h : b ∈ blocks config identity) : b.opening = .create ∨ b = rcLocalBlock := by
  simp only [blocks, List.mem_cons, List.not_mem_nil, or_false] at h
  rcases h with rfl | rfl | rfl | rfl | rfl | rfl | rfl | rfl | rfl
  · exact .inl rfl
  · exact .inl rfl
  · exact .inl rfl
  · exact .inl rfl
  · exact .inl rfl
  · exact .inl rfl
  · exact .inl rfl
  · exact .inr rfl
  · exact .inl rfl

theorem rcLocalBlock_mem (config : Config) (identity : Option Text) :
    rcLocalBlock ∈ blocks config identity := by
  simp [blocks, rcLocalBlock]

/-- With a configuration that can be read, `main` is the writing of the blocks. -/
theorem main_eq {w : World} {fs : Fs} {config : Config} (h : readConfig w fs = some config) :
    main w fs = writeFiles w.fails (blocks config w.identity) fs := by
  unfold main
  rw [h, Option.bind_some]

/-- **Every file holds what is rendered** exactly where the old /etc/rc.local was not longer than
    its template. -/
theorem main_exact_iff (w : World) (fs fs' : Fs) (config : Config)
    (hconfig : readConfig w fs = some config) (h : main w fs = some fs') :
    (∀ b ∈ blocks config w.identity, fs' b.path = some b.content) ↔
      ((fs rcLocal).getD []).length ≤ (asBytes tplRcLocal).length := by
  rw [main_eq hconfig] at h
  have hnodup : ((blocks config w.identity).map Block.path).Nodup := by
    rw [blocks_paths]
    exact paths_nodup
  have hget := writeFiles_get _ h hnodup
  have hrc := Block.result_keep_iff (b := rcLocalBlock) rfl (fs rcLocal)
  rw [rcLocalBlock_content] at hrc
  rw [← hrc, ← rcLocalBlock_content]
  constructor
  · intro hexact
    have hmem := rcLocalBlock_mem config w.identity
    exact Option.some.inj ((hget _ hmem).symm.trans (hexact _ hmem))
  · intro hkeep b hb
    rw [hget b hb]
    rcases blocks_opening hb with hcreate | rfl
    · rw [Block.result_create hcreate]
    · exact congrArg some hkeep

/-- Files that genesis does not write stay. -/
theorem main_other {w : World} {fs fs' : Fs} (h : main w fs = some fs') {path : Text}
    (hpath : path ∉ paths) : fs' path = fs path := by
  obtain ⟨config, -, hwrite⟩ := Option.bind_eq_some_iff.mp h
  refine writeFiles_other _ hwrite ?_
  rw [blocks_paths]
  exact hpath

/-! ### A device with the rc.local it was flashed with -/

/-- Both radios on, and an open network. -/
def sampleConfig : Config where
  wifi := ⟨⟨⟨true, none⟩, ⟨true, none⟩⟩, ⟨⟨"captif".toList, none⟩⟩⟩
  captif := ⟨"http://portal.captif.io".toList⟩

/-- A device that genesis was not told the identity of, where no call fails. -/
def sampleWorld : World where
  arg := some "/tmp/genesis.toml".toList
  fromSlice _ := some sampleConfig
  identity := none
  fails _ := false

/-- The configuration file, and an rc.local. -/
def sampleFs (rc : Option Bytes) : Fs := fun path =>
  if path = "/tmp/genesis.toml".toList then some [] else if path = rcLocal then rc else none

/-- The rc.local of the stock firmware, which is longer than the rendered one. -/
def stockRcLocal : Bytes :=
  asBytes (textOf ["# Put your custom commands here that should be executed once",
    "# the system init finished. By default this file does nothing.", "", "exit 0"])

/-- Without one, every file is as rendered. -/
theorem main_exact_fresh : ∃ fs', main sampleWorld (sampleFs none) = some fs' ∧
    ∀ b ∈ blocks sampleConfig none, fs' b.path = some b.content := by
  have hmain : ∃ fs', main sampleWorld (sampleFs none) = some fs' := ⟨_, rfl⟩
  obtain ⟨fs', hmain⟩ := hmain
  exact ⟨fs', hmain, (main_exact_iff sampleWorld (sampleFs none) fs' sampleConfig rfl hmain).mpr
    (Nat.zero_le _)⟩

/-- **The end of the old file is still there**, its `exit 0` included. -/
theorem stock_rcLocal_remains : ∃ fs', main sampleWorld (sampleFs (some stockRcLocal)) = some fs' ∧
    fs' rcLocal = some (asBytes tplRcLocal ++ stockRcLocal.drop 63) ∧
    fs' rcLocal ≠ some (asBytes tplRcLocal) := by
  have hmain : ∃ fs', main sampleWorld (sampleFs (some stockRcLocal)) = some fs' := ⟨_, rfl⟩
  obtain ⟨fs', hmain⟩ := hmain
  have hlen : (asBytes tplRcLocal).length = 63 := by decide
  have hconfig : readConfig sampleWorld (sampleFs (some stockRcLocal)) = some sampleConfig := rfl
  have hwrite := hmain
  rw [main_eq hconfig] at hwrite
  have hresult := writeFiles_get _ hwrite paths_nodup _ (rcLocalBlock_mem sampleConfig none)
  have hold : sampleFs (some stockRcLocal) rcLocalBlock.path = some stockRcLocal := rfl
  rw [hold] at hresult
  have hpath : rcLocalBlock.path = rcLocal := rfl
  rw [hpath] at hresult
  rw [rcLocalBlock.result_eq, rcLocalBlock_content, hlen] at hresult
  refine ⟨fs', hmain, hresult, ?_⟩
  have hlong : 63 < stockRcLocal.length := by decide +kernel
  rw [hresult, Ne, Option.some.injEq, List.append_right_eq_self, List.drop_eq_nil_iff]
  show ¬ stockRcLocal.length ≤ 63
  omega

end Safewrt.Genesis
