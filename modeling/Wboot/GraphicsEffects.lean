import Wboot.Effects
import Wboot.Graphics

/-! What `wboot_setup_graphics` touches: two fields of the zero page, the console, and
the protocols of the display. -/

namespace Wboot.GraphicsEffects
open StateProgram ByteMemory Machine LinuxBoot Wstdlib Effects ConfigParser Graphics

/-- An offset in `screen_info` or `edid_info`. -/
def DrawnField (x : Nat) : Prop :=
  x < Params.screenInfo + Params.sizeofScreenInfo ∨
    (Params.edidInfo ≤ x ∧ x < Params.edidInfo + Params.sizeofEdidInfo)

/-- Memory changes in those two fields alone. -/
def Paints (params : Nat) (before after : Ram) : Prop :=
  ∀ x, (∀ y, DrawnField y → x ≠ params + y) → after.mem x = before.mem x

instance (params : Nat) : IsPreorder Ram (Paints params) where
  refl := fun _ _ _ => rfl
  trans := fun _ _ _ left right x outside => (right x outside).trans (left x outside)

def displayCall : Event → Prop
  | .locateHandleBuffer .. | .handleProtocol .. | .queryMode .. | .setMode .. => True
  | _ => False

section Painting
variable {params : Nat}

theorem storeField_paints (field : Field) (value : Nat)
    (inside : field.offset + field.width ≤ Params.sizeofScreenInfo) :
    Relates (Paints params) (storeField params field value) := by
  intro ram x outside
  apply Field.set_frame
  by_contra hit
  refine outside (x - params) (Or.inl ?_) (by omega)
  simp only [Params.screenInfo]
  omega

theorem loadField_paints (field : Field) : Relates (Paints params) (loadField params field) :=
  Relates.read _

theorem storeChannel_paints (pos size : Field) (bits : Nat × Nat)
    (first : pos.offset + pos.width ≤ Params.sizeofScreenInfo)
    (second : size.offset + size.width ≤ Params.sizeofScreenInfo) :
    Relates (Paints params) (storeChannel params pos size bits) :=
  (storeField_paints _ _ first).bind fun _ => storeField_paints _ _ second

theorem setupMaskedFormat_paints (info : ModeInfo) :
    Relates (Paints params) (setupMaskedFormat params info) := by
  refine (storeChannel_paints _ _ _ (by decide) (by decide)).bind fun _ => ?_
  refine (storeChannel_paints _ _ _ (by decide) (by decide)).bind fun _ => ?_
  refine (storeChannel_paints _ _ _ (by decide) (by decide)).bind fun _ => ?_
  refine (storeChannel_paints _ _ _ (by decide) (by decide)).bind fun _ => ?_
  refine (loadField_paints _).bind fun red => (loadField_paints _).bind fun green => ?_
  refine (loadField_paints _).bind fun blue => (loadField_paints _).bind fun rsvd => ?_
  refine (storeField_paints _ _ (by decide)).bind fun _ => (loadField_paints _).bind fun depth => ?_
  exact storeField_paints _ _ (by decide)

theorem setupByteFormat_paints (info : ModeInfo) :
    Relates (Paints params) (setupByteFormat params info) := by
  refine (storeChannel_paints _ _ _ (by decide) (by decide)).bind fun _ => ?_
  refine (storeChannel_paints _ _ _ (by decide) (by decide)).bind fun _ => ?_
  refine (storeChannel_paints _ _ _ (by decide) (by decide)).bind fun _ => ?_
  refine (storeChannel_paints _ _ _ (by decide) (by decide)).bind fun _ => ?_
  exact (storeField_paints _ _ (by decide)).bind fun _ => storeField_paints _ _ (by decide)

theorem setupScreenInfo_paints (mode : GopMode) : Relates (Paints params) (setupScreenInfo params mode) := by
  refine (storeField_paints _ _ (by decide)).bind fun _ => (storeField_paints _ _ (by decide)).bind fun _ => ?_
  refine (storeField_paints _ _ (by decide)).bind fun _ => (storeField_paints _ _ (by decide)).bind fun _ => ?_
  refine (storeField_paints _ _ (by decide)).bind fun _ => (loadField_paints _).bind fun high => ?_
  have sized : Relates (Paints params) (do
      let linelength ← loadField params Params.lfbLinelength
      let height ← loadField params Params.lfbHeight
      storeField params Params.lfbSize (linelength * height)
      let capabilities ← loadField params Params.capabilities
      storeField params Params.capabilities (capabilities ||| videoCapabilitySkipQuirks)) := by
    refine (loadField_paints _).bind fun _ => (loadField_paints _).bind fun _ => ?_
    refine (storeField_paints _ _ (by decide)).bind fun _ => (loadField_paints _).bind fun _ => ?_
    exact storeField_paints _ _ (by decide)
  have formatted : Relates (Paints params) (do
      storeField params Params.pages 1
      if mode.info.pixelFormat = pixelBitMask then setupMaskedFormat params mode.info
      else setupByteFormat params mode.info
      let linelength ← loadField params Params.lfbLinelength
      let height ← loadField params Params.lfbHeight
      storeField params Params.lfbSize (linelength * height)
      let capabilities ← loadField params Params.capabilities
      storeField params Params.capabilities (capabilities ||| videoCapabilitySkipQuirks)) :=
    (storeField_paints _ _ (by decide)).bind fun _ =>
      .ite (fun _ => (setupMaskedFormat_paints _).bind fun _ => sized) fun _ =>
        (setupByteFormat_paints _).bind fun _ => sized
  refine .ite (fun _ => ?_) fun _ => formatted
  exact (loadField_paints _).bind fun _ => (storeField_paints _ _ (by decide)).bind fun _ => formatted

theorem clear_paints (start count : Nat) (inside : ∀ i, i < count → DrawnField (start + i)) :
    Relates (Paints params) (memset (params + start) 0 count) := by
  intro ram x outside
  simp only [memset, modifyState_apply, setLoop_apply]
  rw [if_neg]
  rintro ⟨lower, upper⟩
  exact outside (start + (x - (params + start))) (inside _ (by omega)) (by omega)

theorem setupEdidInfo_paints (sizeOfEdid : Nat) (edid : Option (List UInt8)) :
    Relates (Paints params) (setupEdidInfo params sizeOfEdid edid) := by
  have within (i : Nat) (bound : i < Params.sizeofEdidInfo) : DrawnField (Params.edidInfo + i) :=
    Or.inr ⟨by omega, by omega⟩
  have cleared : Relates (Paints params) (memset (params + Params.edidInfo) 0 Params.sizeofEdidInfo) :=
    clear_paints Params.edidInfo Params.sizeofEdidInfo within
  cases edid with
  | none => exact cleared
  | some edid =>
      refine .ite (fun _ => cleared) fun _ ram x outside => ?_
      apply storeBytes_frame
      by_contra hit
      rw [List.length_take] at hit
      exact outside (Params.edidInfo + (x - (params + Params.edidInfo))) (within _ (by omega)) (by omega)

end Painting

/-! Every use of the display is made of prints, display calls and painting. -/
section Display
variable {fw : Firmware} {step : World → World → Prop} [IsPreorder World step] {params : Nat}

structure Displays (params : Nat) (step : World → World → Prop) : Prop where
  prints : ∀ before after, Prints before after → step before after
  calls : ∀ {ρ : Type} (answer : History → ρ) (event : ρ → Event),
    (∀ reply, displayCall (event reply)) → Relates step (service answer event)
  paints : ∀ program : Prog Ram Unit, Relates (Paints params) program → Relates step (inRam program)

theorem findHandleFrom_relates (displays : Displays params step) (first : Nat × Nat) (handles : List Nat) :
    Relates step (findHandleFrom fw first handles) := by
  have handle (h : Nat) (protocol : Protocol) : Relates step (handleProtocol fw h protocol) :=
    displays.calls _ _ fun _ => trivial
  induction handles generalizing first with
  | nil => exact .pure _
  | cons h rest ih =>
      refine (handle _ _).bind fun gop => .ite (fun _ => ih _) fun _ => ?_
      refine (Relates.read _).bind fun mode => .ite (fun _ => ih _) fun _ => ?_
      exact (handle _ _).bind fun console => .ite (fun _ => .pure _) fun _ => ih _

theorem chooseModeFrom_relates (displays : Displays params step) (config : WbootConfig)
    (gop ctx m left : Nat) : Relates step (chooseModeFrom fw config gop ctx m left) := by
  have query (mode : Nat) : Relates step (queryMode fw gop mode) := displays.calls _ _ fun _ => trivial
  induction left generalizing m with
  | zero => exact .pure _
  | succ left ih =>
      exact (query _).bind fun reply => .ite (fun _ => ih _) fun _ => .ite (fun _ => .pure _) fun _ => ih _

theorem setGraphicsMode_relates (displays : Displays params step) (config : WbootConfig) (gop : Nat) :
    Relates step (setGraphicsMode fw config gop) := by
  have sets (mode : Nat) : Relates step (setMode fw gop mode) := displays.calls _ _ fun _ => trivial
  have chosen : Relates step (chooseModeRes fw config gop) :=
    (Relates.read _).bind fun mode => .ite (fun _ => .pure _) fun _ =>
      chooseModeFrom_relates displays _ _ _ _ _
  refine (Relates.read _).bind fun mode => chosen.bind fun newMode => .ite (fun _ => .pure _) fun _ => ?_
  refine (sets _).bind fun status => .ite (fun _ => ?_) fun _ => .pure _
  exact (printf_prints fw _ _ (by decide +kernel)).mono displays.prints

theorem wbootSetupGraphics_relates (displays : Displays params step) (config : WbootConfig) :
    Relates step (wbootSetupGraphics fw config params) := by
  have handle (h : Nat) (protocol : Protocol) : Relates step (handleProtocol fw h protocol) :=
    displays.calls _ _ fun _ => trivial
  have edid (h : Nat) : Relates step (readEdid fw h) :=
    (handle _ _).bind fun active => .ite (fun _ => .read _) fun _ =>
      (handle _ _).bind fun discovered => .ite (fun _ => .read _) fun _ => .pure _
  have located : Relates step (locateHandleBuffer fw .graphicsOutput) :=
    displays.calls _ _ fun _ => trivial
  refine (displays.paints _ (clear_paints _ _ fun i bound => Or.inl (by omega))).bind fun _ => ?_
  refine (displays.paints _ (clear_paints _ _ fun i bound => Or.inr ⟨by omega, by omega⟩)).bind fun _ => ?_
  refine located.bind fun handles => .ite (fun _ => .pure _) fun _ => ?_
  refine (findHandleFrom_relates displays _ _).bind fun found => .ite (fun _ => .pure _) fun _ => ?_
  refine (setGraphicsMode_relates displays _ _).bind fun _ => (Relates.read _).bind fun mode => ?_
  refine (displays.paints _ (setupScreenInfo_paints _)).bind fun _ => (edid _).bind fun read => ?_
  exact (displays.paints _ (setupEdidInfo_paints _ _)).bind fun _ => .pure _

end Display

end Wboot.GraphicsEffects
