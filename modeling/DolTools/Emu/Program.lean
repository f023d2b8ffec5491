import DolTools.Emu.Detection

/-! The whole of `main`: its arguments, the model of the host, the file, and the start of the
guest. -/
namespace DolTools
open ByteOrder

/-- What the calls into the system give `main` on its way to the file: the model in the device
tree if it can be opened, and whether the other calls succeed. The buffer for the model holds
arbitrary bytes before. -/
structure MainEnv where
  model : Option (List Byte)
  modelReads : Bool
  modelBuf : Fin 64 → Byte
  opens : Bool
  stats : Bool
  maps : Bool
  boot : BootEnv

/-- Where `main` ends. It stops where `E_MemInit` or a later step exits or faults, and it writes
behind `errBuf` if the name in an error does not fit. -/
inductive RunExit
  | usage
  | modelNotOpened
  | modelNotRead
  | wrongHost
  | notOpened
  | notSized
  | notMapped
  | overrun
  | stopped
  | entered (l : Loaded)

/-- The string in `modelBuf` behind the `fread`, which fills the buffer as far as the file goes. -/
def modelText (buf : Fin 64 → Byte) (model : List Byte) : List Byte :=
  (model.take 64 ++ (List.ofFn buf).drop model.length).takeWhile (fun b => b ≠ 0)

def ascii (text : String) : List Byte := text.toList.map (fun c => BitVec.ofNat 8 c.toNat)

/-- The host by its model, as the two `strcmp` tell it. -/
def hostModel (text : List Byte) : ConsoleType :=
  if text = ascii "nintendo,wii" then .wii
  else if text = ascii "nintendo,gamecube" then .gamecube
  else .other

/-- An error about the file, its text put into the 256 bytes of `errBuf`. -/
def fileError (text : String) (path : List Char) (exit : RunExit) : RunExit :=
  if (text.toList ++ path).length < 256 then exit else .overrun

/-- `main` once it has read the model of the host. -/
def runOn (k : Kernel) (env : MainEnv) (hostType : ConsoleType) (path : List Char)
    (file : List Byte) (ram : RamBytes) : RunExit :=
  if hostType = .other then .wrongHost
  else if !env.opens then fileError "Failed to open " path .notOpened
  else if !env.stats then fileError "Failed to get size of " path .notSized
  else if !env.maps || file.isEmpty then fileError "Failed to mmap() " path .notMapped
  else
    match detectMain k { env.boot with hostType := hostType } file ram with
    | none => .stopped
    | some l => .entered l

/-- `main` of `dol-run`. -/
def runMain (k : Kernel) (env : MainEnv) (argv : List (List Char)) (file : List Byte)
    (ram : RamBytes) : RunExit :=
  match argv with
  | [_, path] =>
    if path = [] then .usage
    else
      match env.model with
      | none => .modelNotOpened
      | some model =>
        if !env.modelReads then .modelNotRead
        else runOn k env (hostModel (modelText env.modelBuf model)) path file ram
  | _ => .usage

def RunExit.loaded : RunExit → Option Loaded
  | .entered l => some l
  | _ => none

section

variable {k : Kernel} {env : MainEnv} {argv : List (List Char)} {file : List Byte}
  {ram : RamBytes} {l : Loaded}

lemma RunExit.exists_entered {r : RunExit} (h : r.loaded.isSome = true) : ∃ l, r = .entered l := by
  cases r with
  | entered l => exact ⟨l,rfl⟩
  | _ => contradiction

lemma fileError_ne {text : String} {path : List Char} {exit : RunExit}
    (h : ∀ l, exit ≠ .entered l) : fileError text path exit ≠ .entered l := by
  unfold fileError
  split
  · exact h l
  · exact RunExit.noConfusion

lemma runOn_entered {hostType : ConsoleType} {path : List Char}
    (h : runOn k env hostType path file ram = .entered l) : hostType ≠ .other ∧
      detectMain k { env.boot with hostType := hostType } file ram = some l := by
  unfold runOn at h
  split_ifs at h with hother
  · exact absurd h (fileError_ne (fun _ => RunExit.noConfusion))
  · exact absurd h (fileError_ne (fun _ => RunExit.noConfusion))
  · exact absurd h (fileError_ne (fun _ => RunExit.noConfusion))
  · split at h
    · contradiction
    · rename_i hl
      rw [hl, RunExit.entered.inj h]
      exact ⟨hother,rfl⟩

/-- A guest is entered by the search and the loading, on a host that is known. -/
theorem runMain_entered (h : runMain k env argv file ram = .entered l) :
    ∃ hostType, hostType ≠ .other ∧
      detectMain k { env.boot with hostType := hostType } file ram = some l := by
  unfold runMain at h
  split at h
  · cases hmodel : env.model with
    | none =>
      rw [hmodel] at h
      split_ifs at h
    | some model =>
      rw [hmodel] at h
      dsimp only at h
      split_ifs at h
      exact ⟨_,runOn_entered h⟩
  · contradiction

end

/-- A GameCube on which every call succeeds; the model in the device tree is terminated. -/
def gcnHost : MainEnv where
  model := some (ascii "nintendo,gamecube" ++ [0])
  modelReads := true
  modelBuf := fun _ => 0xFF
  opens := true
  stats := true
  maps := true
  boot := gcnBoot

end DolTools
