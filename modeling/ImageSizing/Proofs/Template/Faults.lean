import ImageSizing.Template.Basic
import ImageSizing.Proofs.Value.Faults

/-!
# Faults of templates

A template is not filled because of its form, of a look-up, of a layout, of a value without a
text, or for a reason that comes from elsewhere.  None of these faults is about an output (`fill_ne_output`).
-/

namespace ImageSizing.Template

variable {o : OutputFault}

/-! ## Layouts -/

theorem ofLayout_ne_output {α : Type} {r : Except LayoutFault α} :
    ofLayout r ≠ .error (.output o) := mapError_ne_error fun _ _ => nofun

theorem ofForeign_ne_output {α : Type} {r : Except ForeignFault α} :
    ofForeign r ≠ .error (.output o) := mapError_ne_error fun _ _ => nofun

theorem writeText_ne_output {layout : List Char} {s : String} :
    writeText layout s ≠ .error (.output o) :=
  bind_ne_error ofLayout_ne_output fun _ => ofLayout_ne_output

theorem writeInteger_ne_output {layout : List Char} {n : Int} {typeName : String} :
    writeInteger layout n typeName ≠ .error (.output o) := by
  refine bind_ne_error ofLayout_ne_output fun l => bind_ne_error ofLayout_ne_output fun _ => ?_
  split
  · nofun
  · exact pure_ne_error _

theorem writeDouble_ne_output {layout : List Char} {x : Binary64} :
    writeDouble layout x ≠ .error (.output o) :=
  bind_ne_error ofLayout_ne_output fun _ => ofLayout_ne_output

theorem writeValue_ne_output (layout : List Char) (v : Value) :
    writeValue layout v ≠ .error (.output o) := by
  unfold writeValue
  split
  · exact bind_ne_error Value.display?_ne_output fun _ => pure_ne_error _
  · split
    · exact writeText_ne_output
    · exact writeInteger_ne_output
    · exact writeInteger_ne_output
    · exact writeDouble_ne_output
    · nofun

namespace Found

theorem display?_ne_output (x : Found) : x.display? ≠ .error (.output o) := by
  cases x with
  | value v => exact Value.display?_ne_output
  | object _ => exact ofForeign_ne_output

theorem quoted?_ne_output (x : Found) : x.quoted? ≠ .error (.output o) := by
  cases x with
  | value v => exact Value.quoted?_ne_output
  | object _ => exact ofForeign_ne_output

theorem write_ne_output (layout : List Char) (x : Found) : x.write layout ≠ .error (.output o) := by
  cases x with
  | value v => exact writeValue_ne_output layout v
  | object _ => exact ofForeign_ne_output

end Found

/-! ## Pieces -/

variable {attributes : Attributes} {fields : List (String × Value)}
  {inner : List Char → Except Fault (List Char)}

theorem convert_ne_output (conversion : Option Char) (x : Found) :
    convert conversion x ≠ .error (.output o) := by
  unfold convert
  split
  · nofun
  · nofun
  · exact bind_ne_error x.display?_ne_output fun _ => pure_ne_error _
  · exact bind_ne_error x.quoted?_ne_output fun _ => pure_ne_error _
  · exact bind_ne_error x.quoted?_ne_output fun _ => pure_ne_error _
  · nofun

theorem writePiece_ne_output (hinner : ∀ cs, inner cs ≠ .error (.output o)) (piece : Piece) :
    writePiece attributes fields inner piece ≠ .error (.output o) := by
  cases piece with
  | literal text => nofun
  | field name conversion layout nested =>
    refine bind_ne_error (mapError_ne_error fun _ _ => nofun) fun x => ?_
    refine bind_ne_error (convert_ne_output conversion x) fun converted => ?_
    cases nested with
    | true => exact bind_ne_error (hinner layout) fun _ => converted.write_ne_output _
    | false => exact converted.write_ne_output _

theorem writeAll_ne_output (hinner : ∀ cs, inner cs ≠ .error (.output o))
    (fault : Option TemplateFault) (pieces : List Piece) :
    writeAll attributes fields inner fault pieces ≠ .error (.output o) := by
  induction pieces with
  | nil =>
    unfold writeAll
    split <;> nofun
  | cons piece rest ih =>
    exact bind_ne_error (writePiece_ne_output hinner piece) fun _ =>
      bind_ne_error ih fun _ => pure_ne_error _

/-! ## Templates -/

theorem fillWithin_ne_output (depth : Nat) (cs : List Char) :
    fillWithin attributes fields depth cs ≠ .error (.output o) := by
  induction depth generalizing cs with
  | zero => nofun
  | succ depth ih => exact writeAll_ne_output ih _ _

theorem fill_ne_output (template : String) : fill attributes fields template ≠ .error (.output o) :=
  bind_ne_error (fillWithin_ne_output 2 _) fun _ => pure_ne_error _

end ImageSizing.Template
