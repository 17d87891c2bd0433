namespace Pagewright
namespace Stylesheet

/-!
# The vocabulary of stylesheets

Most commands set one property.  Such a command has a default for a missing
value, and may have a table of Arabic names for its values; a value that the
table does not name is used as it is.
-/

def textAlignments : List (String × String) :=
  [("يمين", "right"), ("يسار", "left"), ("وسط", "center"), ("ضبط", "justify")]

def textDecorations : List (String × String) :=
  [("خط_تحت", "underline"), ("خط_فوق", "overline"), ("خط_وسط", "line-through"),
    ("بلا", "none")]

def displays : List (String × String) :=
  [("كتلة", "block"), ("سطري", "inline"), ("سطري_كتلة", "inline-block"),
    ("فلكس", "flex"), ("شبكة", "grid"), ("مخفي", "none")]

def positions : List (String × String) :=
  [("ثابت", "static"), ("نسبي", "relative"), ("مطلق", "absolute"), ("مثبت", "fixed"),
    ("لاصق", "sticky")]

def borderStyles : List (String × String) :=
  [("صلب", "solid"), ("منقط", "dotted"), ("متقطع", "dashed"), ("مزدوج", "double"),
    ("محفور", "groove"), ("مرتفع", "ridge")]

def flexDirections : List (String × String) :=
  [("صف", "row"), ("صف_عكسي", "row-reverse"), ("عمود", "column"),
    ("عمود_عكسي", "column-reverse")]

def justifications : List (String × String) :=
  [("بداية", "flex-start"), ("نهاية", "flex-end"), ("وسط", "center"),
    ("متباعد", "space-between"), ("متوزع", "space-around"),
    ("متوزع_بالتساوي", "space-evenly")]

def itemAlignments : List (String × String) :=
  [("بداية", "flex-start"), ("نهاية", "flex-end"), ("وسط", "center"),
    ("امتداد", "stretch"), ("خط_أساسي", "baseline")]

def backgroundSizes : List (String × String) :=
  [("غطاء", "cover"), ("احتواء", "contain"), ("تلقائي", "auto")]

def backgroundRepeats : List (String × String) :=
  [("تكرار", "repeat"), ("بلا_تكرار", "no-repeat"), ("تكرار_س", "repeat-x"),
    ("تكرار_ص", "repeat-y")]

def backgroundPositions : List (String × String) :=
  [("أعلى_يمين", "top right"), ("أعلى_يسار", "top left"), ("أعلى_وسط", "top center"),
    ("أسفل_يمين", "bottom right"), ("أسفل_يسار", "bottom left"),
    ("أسفل_وسط", "bottom center"), ("وسط", "center")]

def cursors : List (String × String) :=
  [("مؤشر", "pointer"), ("نص", "text"), ("تحريك", "move"), ("انتظار", "wait"),
    ("مساعدة", "help"), ("ممنوع", "not-allowed")]

def overflows : List (String × String) :=
  [("مرئي", "visible"), ("مخفي", "hidden"), ("تمرير", "scroll"), ("تلقائي", "auto")]

def visibilities : List (String × String) :=
  [("مرئي", "visible"), ("مخفي", "hidden")]

inductive Instruction where
  | select
  | selectAll
  | rule
  | property (name default : String) (values : List (String × String))
  | fixed (name value : String)
  | fontFamily
  | backgroundImage
  | startMedia
  | endMedia
deriving Repr, DecidableEq

/-- The value that a word names, which is the word itself when it names none. -/
def valueNamed (values : List (String × String)) (word : String) : String :=
  (values.lookup word).getD word

/-- The keys of the commands. -/
def vocabulary : List (String × Instruction) :=
  [("اختر", .select),
    ("حدد", .select),
    ("اختر_الكل", .selectAll),
    ("حدد_الكل", .selectAll),
    ("قاعدة", .rule),
    ("rule", .rule),
    ("لون", .property "color" "black" []),
    ("لون_النص", .property "color" "black" []),
    ("لون_الخلفية", .property "background-color" "white" []),
    ("خلفية", .property "background-color" "white" []),
    ("لون_الحدود", .property "border-color" "gray" []),
    ("الخط", .fontFamily),
    ("نوع_الخط", .fontFamily),
    ("حجم_الخط", .property "font-size" "16px" []),
    ("وزن_الخط", .property "font-weight" "normal" []),
    ("محاذاة_النص", .property "text-align" "right" textAlignments),
    ("تزيين_النص", .property "text-decoration" "none" textDecorations),
    ("العرض", .property "width" "auto" []),
    ("width", .property "width" "auto" []),
    ("الارتفاع", .property "height" "auto" []),
    ("height", .property "height" "auto" []),
    ("الهامش", .property "margin" "0" []),
    ("margin", .property "margin" "0" []),
    ("البطانة", .property "padding" "0" []),
    ("padding", .property "padding" "0" []),
    ("النوع", .property "display" "block" displays),
    ("display", .property "display" "block" displays),
    ("الموضع", .property "position" "static" positions),
    ("position", .property "position" "static" positions),
    ("الحدود", .property "border" "1px solid black" []),
    ("border", .property "border" "1px solid black" []),
    ("سماكة_الحدود", .property "border-width" "1px" []),
    ("نوع_الحدود", .property "border-style" "solid" borderStyles),
    ("استدارة_الحدود", .property "border-radius" "0" []),
    ("فلكس", .fixed "display" "flex"),
    ("flexbox", .fixed "display" "flex"),
    ("اتجاه_الفلكس", .property "flex-direction" "row" flexDirections),
    ("محاذاة_الفلكس", .property "justify-content" "flex-start" justifications),
    ("محاذاة_العناصر", .property "align-items" "stretch" itemAlignments),
    ("الشبكة", .fixed "display" "grid"),
    ("grid", .fixed "display" "grid"),
    ("أعمدة_الشبكة", .property "grid-template-columns" "1fr" []),
    ("صفوف_الشبكة", .property "grid-template-rows" "1fr" []),
    ("فجوة_الشبكة", .property "gap" "10px" []),
    ("الظل", .property "box-shadow" "0 2px 4px rgba(0,0,0,0.1)" []),
    ("shadow", .property "box-shadow" "0 2px 4px rgba(0,0,0,0.1)" []),
    ("الشفافية", .property "opacity" "1" []),
    ("opacity", .property "opacity" "1" []),
    ("التحويل", .property "transform" "none" []),
    ("transform", .property "transform" "none" []),
    ("الانتقال", .property "transition" "all 0.3s ease" []),
    ("transition", .property "transition" "all 0.3s ease" []),
    ("صورة_الخلفية", .backgroundImage),
    ("حجم_الخلفية", .property "background-size" "auto" backgroundSizes),
    ("تكرار_الخلفية", .property "background-repeat" "repeat" backgroundRepeats),
    ("موضع_الخلفية", .property "background-position" "top left" backgroundPositions),
    ("استعلام_الوسائط", .startMedia),
    ("media_query", .startMedia),
    ("أنهِ_الاستعلام", .endMedia),
    ("end_media", .endMedia),
    ("المؤشر", .property "cursor" "default" cursors),
    ("cursor", .property "cursor" "default" cursors),
    ("الفيض", .property "overflow" "visible" overflows),
    ("overflow", .property "overflow" "visible" overflows),
    ("الرؤية", .property "visibility" "visible" visibilities),
    ("visibility", .property "visibility" "visible" visibilities),
    ("المؤشر_z", .property "z-index" "auto" []),
    ("z_index", .property "z-index" "auto" [])]

def Instruction.ofKey? (key : String) : Option Instruction :=
  vocabulary.lookup key

end Stylesheet
end Pagewright
