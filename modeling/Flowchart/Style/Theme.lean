import Flowchart.Style.Config
import Flowchart.Decimal.Written
/-!
Named presets of colours and type. A theme sets style attributes and the background; distances
stay as they are configured.
-/
namespace Flowchart

structure Theme where
  name : String
  fontFamily : String
  fontSize : Float32
  labelFontSize : Float32
  textColor : String
  labelColor : String
  nodeFill : String
  nodeStroke : String
  decisionFill : String
  lineColor : String
  frameStroke : String
  background : String
deriving BEq, Repr

namespace Theme

def classic : Theme where
  name := "classic"
  fontFamily := "\"trebuchet ms\", verdana, arial, sans-serif"
  fontSize := 14
  labelFontSize := 11
  textColor := "#333333"
  labelColor := "#555555"
  nodeFill := "#ECECFF"
  nodeStroke := "#9370DB"
  decisionFill := "#FFFFDE"
  lineColor := "#333333"
  frameStroke := "#AAAA33"
  background := "#FFFFFF"

def modern : Theme where
  name := "modern"
  fontFamily := "Inter, Segoe UI, system-ui, -apple-system, sans-serif"
  fontSize := 13
  labelFontSize := 10
  textColor := "#1C2430"
  labelColor := "#52607A"
  nodeFill := "#F8FAFF"
  nodeStroke := "#C7D2E5"
  decisionFill := "#EEF2F8"
  lineColor := "#7A8AA6"
  frameStroke := "#D7E0F0"
  background := "#FFFFFF"

def named? : String → Option Theme
  | "classic" | "default" => some classic
  | "modern" => some modern
  | _ => none

variable {α : Type}

def apply (t : Theme) (c : Config α) : Config α :=
  { c with
    theme := t.name
    rect := { c.rect with attrs := (c.rect.attrs.put "fill" t.nodeFill).put "stroke" t.nodeStroke }
    diamond :=
      { c.diamond with
        attrs := (c.diamond.attrs.put "fill" t.decisionFill).put "stroke" t.nodeStroke }
    path := ⟨c.path.attrs.put "stroke" t.lineColor⟩
    arrowHead := { c.arrowHead with attrs := c.arrowHead.attrs.put "fill" t.lineColor }
    frame := { c.frame with attrs := c.frame.attrs.put "stroke" t.frameStroke }
    text := ⟨typed c.text.attrs t.fontSize t.textColor⟩
    label := ⟨typed c.label.attrs t.labelFontSize t.labelColor⟩
    render := { c.render with background := t.background } }
where
  typed (attrs : Attrs) (size : Float32) (color : String) : Attrs :=
    ((attrs.put "font-family" t.fontFamily).put "font-size"
      (Decimal.NumberStyle.bare.single size)).put "fill" color

end Theme

def Config.classic {α : Type} [Scalar α] : Config α := Theme.classic.apply Config.plain

end Flowchart
