/-!
# Style attributes

Which properties of a style hold colors, which hold lengths, and which lengths are measured along
the vertical axis.
-/

namespace StyleEngine.Attribute

/-! ## Names with a role of their own -/

def elevation : String := "elevation"

def cursor : String := "cursor"

def width : String := "width"

def height : String := "height"

def marginLeft : String := "marginLeft"

def marginRight : String := "marginRight"

def marginTop : String := "marginTop"

def marginBottom : String := "marginBottom"

def margins : List String := [marginLeft, marginRight, marginTop, marginBottom]

/-! ## Classes -/

def colors : List String :=
  ["color", "backgroundColor", "borderColor", "borderTopColor", "borderRightColor",
   "borderBottomColor", "borderLeftColor", "borderStartColor", "borderEndColor",
   "borderBlockColor", "borderBlockStartColor", "borderBlockEndColor", "shadowColor",
   "textShadowColor", "textDecorationColor", "tintColor", "overlayColor", "outlineColor",
   "placeholderTextColor", "selectionColor", "underlineColorAndroid"]

def lengths : List String :=
  ["width", "height", "minWidth", "maxWidth", "minHeight", "maxHeight", "flexBasis",
   "top", "right", "bottom", "left", "start", "end",
   "margin", "marginTop", "marginRight", "marginBottom", "marginLeft", "marginStart",
   "marginEnd", "marginHorizontal", "marginVertical",
   "padding", "paddingTop", "paddingRight", "paddingBottom", "paddingLeft", "paddingStart",
   "paddingEnd", "paddingHorizontal", "paddingVertical",
   "borderWidth", "borderTopWidth", "borderRightWidth", "borderBottomWidth", "borderLeftWidth",
   "borderStartWidth", "borderEndWidth", "borderRadius", "borderTopLeftRadius",
   "borderTopRightRadius", "borderBottomLeftRadius", "borderBottomRightRadius", "outlineWidth",
   "outlineOffset",
   "gap", "rowGap", "columnGap",
   "fontSize", "lineHeight", "letterSpacing",
   "shadowRadius", "textShadowRadius"]

/-- Lengths along the vertical axis: a percentage of theirs refers to the parent's height. -/
def verticals : List String :=
  ["height", "minHeight", "maxHeight", "top", "bottom", "marginTop", "marginBottom",
   "marginVertical", "paddingTop", "paddingBottom", "paddingVertical"]

def isColor (key : String) : Bool := colors.contains key

def isLength (key : String) : Bool := lengths.contains key

def isVertical (key : String) : Bool := verticals.contains key

end StyleEngine.Attribute
