import Wboot.ConfigLoad

/-! The command line of a loaded configuration stands in a pool block of its own,
whatever the file says, as long as files are not larger than memory. -/

namespace Wboot.CommandLine
open StateProgram ByteMemory CString Machine Wstdlib Effects ConfigParser ConfigCourses ConfigGrammar ConfigHeap
  ConfigLoad ServiceEnd

/-- A buffer lies in memory, of which there is far less than this. -/
structure FilesSound (fw : Firmware) : Prop where
  bounded : ∀ history file size, (fw.fileRead history file size).2.length + 1 < 2 ^ 63

/-- The string and its terminator fit the block. -/
def OwnsCmdline (config : WbootConfig) (world : World) : Prop :=
  ∃ size, ⟨.pool, config.cmdline, size⟩ ∈ live world.history ∧ strlen8 world.mem config.cmdline < size

section Loading
variable {fw : Firmware} {root file : Nat} {before after : World}

/-- A buffer that was read holds some string. -/
theorem readConfigData_loads {data : Nat} (sound : AllocatorSound fw) (files : FilesSound fw)
    (early : before.bsExited = false) (run : readConfigData fw file before = (some data, after)) :
    ∃ size content, content.length + 1 < 2 ^ 63 ∧ Loaded data size content after := by
  cases readConfigData_course fw run with
  | whole steps served same =>
      have still := (informing_calls steps.toInforming).bsExited.trans early
      have buffer := malloc_allocates fw sound still steps.reserves
      obtain ⟨answered, stays, called, -⟩ := fileReadInto_run steps.reads
      have delivered : steps.result.2 ≤ (fw.fileRead steps.allocated.history file steps.size).2.length := by
        rw [answered, List.length_take]
        exact Nat.min_le_right _ _
      have bound := files.bounded steps.allocated.history file steps.size
      have exact : u64 (steps.size + 1) = steps.result.2 + 1 := by
        rw [← same]
        exact Nat.mod_eq_of_lt (by omega)
      have ended : poke steps.read.mem (steps.data + steps.result.2) 0 (steps.data + steps.result.2) = 0 :=
        poke_same _ _ _
      obtain ⟨short, string⟩ := @stringFrom_ended _ addressSpace steps.data steps.result.2 ended
      refine ⟨steps.result.2 + 1, _, ?_, stays.trans (buffer.bsExited.trans still), steps.there, ?_,
        Nat.succ_le_succ short, string (by rw [addressSpace_eq]; omega)⟩
      · omega
      · have lives : live steps.read.history = live steps.allocated.history := by rw [called]; rfl
        rw [← exact]
        exact lives ▸ buffer.lives steps.there ▸ List.mem_cons_self

/-- The blocks of the configuration outlive the buffer it was read from. -/
theorem wbootLoadConfig_cmdline {config : WbootConfig} (sound : AllocatorSound fw) (files : FilesSound fw)
    (early : before.bsExited = false) (run : wbootLoadConfig fw root before = (some config, after)) :
    OwnsCmdline config after := by
  cases wbootLoadConfig_course fw run with
  | loaded steps openable reads parses frees closing =>
      have still := (opening_calls steps).bsExited.trans early
      obtain ⟨size, content, bounded, loaded⟩ := readConfigData_loads sound files still reads
      rcases parseConfigData_run sound bounded loaded parses with
        ⟨-, _, done⟩ | ⟨-, -, _, done⟩ | ⟨final, fields, sizes, accepted, given, same, stored⟩
      · cases done
      · cases done
      cases same
      have released := free_releases fw stored.owned.early frees
      obtain ⟨value, set⟩ := Option.isSome_iff_exists.mp (given (.text .cmdline))
      obtain ⟨present, length, here⟩ := stored.texts .cmdline value set
      have kept := released.keeps _ (stored.owned.blocks .cmdline present) (stored.owned.foreign .cmdline)
      cases closing
      refine ⟨sizes .cmdline, kept, ?_⟩
      rw [length]
      -- the copy ends with its own terminator
      have ended := ((textAt_append _ _ _ _).mp here).2.1
      rw [← congrArg Ram.mem released.ram] at ended
      have short := (@stringFrom_ended _ addressSpace _ _ ended).1
      simp only [encoded, List.length_append, List.length_singleton]
      exact Nat.lt_succ_of_le short

theorem tryHandle_loads {handle : Nat} {config : WbootConfig} (early : before.bsExited = false)
    (run : tryHandle fw handle before = (some config, after)) :
    ∃ root opened, opened.bsExited = false ∧ wbootLoadConfig fw root opened = (some config, after) := by
  unfold tryHandle at run
  rw [run_bind] at run
  obtain ⟨_, printed, prints, run⟩ := run
  rw [run_bind] at run
  obtain ⟨fs, found, finds, run⟩ := run
  rw [run_ite] at run
  rcases run with ⟨-, run⟩ | ⟨-, run⟩
  · rw [run_bind] at run
    obtain ⟨_, _, _, done⟩ := run
    cases done
  rw [run_bind] at run
  obtain ⟨volume, opened, opens, run⟩ := run
  rw [run_ite] at run
  rcases run with ⟨-, run⟩ | ⟨-, run⟩
  · rw [run_bind] at run
    obtain ⟨_, _, _, done⟩ := run
    cases done
  · refine ⟨volume.2, opened, ?_, run⟩
    have quiet := (((ordinary_searches fw).printDevicePath handle).run prints).bsExited
    exact (service_bsExited opens).trans ((service_bsExited finds).trans (quiet.trans early))

theorem tryHandles_loads {handles : List Nat} {config : WbootConfig} (early : before.bsExited = false)
    (run : tryHandles fw handles before = (some config, after)) :
    ∃ root opened, opened.bsExited = false ∧ wbootLoadConfig fw root opened = (some config, after) := by
  induction handles generalizing before with
  | nil => cases run
  | cons handle rest ih =>
      unfold tryHandles at run
      rw [run_bind] at run
      obtain ⟨found, tried, tries, run⟩ := run
      cases found with
      | some fields =>
          cases run
          exact tryHandle_loads early tries
      | none => exact ih ((((ordinary_searches fw).tryHandle handle).run tries).bsExited.trans early) run

/-- A configuration that is located was the last thing loaded. -/
theorem wbootLocateConfig_loads {config : WbootConfig} {status : EfiStatus} (early : before.bsExited = false)
    (run : wbootLocateConfig fw before = ((status, some config), after)) :
    ∃ root opened, opened.bsExited = false ∧ wbootLoadConfig fw root opened = (some config, after) := by
  unfold wbootLocateConfig at run
  rw [run_bind] at run
  obtain ⟨texts, asked, asks, run⟩ := run
  rw [run_ite] at run
  rcases run with ⟨-, run⟩ | ⟨-, run⟩
  · cases run
  rw [run_bind] at run
  obtain ⟨handles, listed, lists, run⟩ := run
  rw [run_ite] at run
  rcases run with ⟨-, run⟩ | ⟨-, run⟩
  · cases run
  rw [run_bind] at run
  obtain ⟨tried, found, tries, run⟩ := run
  cases tried with
  | some fields =>
      cases run
      refine tryHandles_loads ?_ tries
      exact (service_bsExited lists).trans (((ordinary_searches fw).getDevicePathToText.run asks).bsExited.trans early)
  | none =>
      rw [run_bind] at run
      obtain ⟨_, _, _, done⟩ := run
      cases done

theorem wbootLocateConfig_cmdline {config : WbootConfig} {status : EfiStatus} (sound : AllocatorSound fw)
    (files : FilesSound fw) (early : before.bsExited = false)
    (run : wbootLocateConfig fw before = ((status, some config), after)) : OwnsCmdline config after := by
  obtain ⟨root, opened, still, loads⟩ := wbootLocateConfig_loads early run
  exact wbootLoadConfig_cmdline sound files still loads

end Loading

end Wboot.CommandLine
