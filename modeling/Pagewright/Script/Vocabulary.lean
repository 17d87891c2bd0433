namespace Pagewright
namespace Script

/-!
# The vocabulary of scripts

A command of a script is one statement, or the beginning, the middle or the end
of a block.  Ends of blocks differ only in the name that a message about an
unmatched end mentions.
-/

inductive Instruction where
  | declare
  | assign
  | function
  | call
  | returnValue
  | print
  | alert
  | ask
  | whenTrue
  | otherwiseIf
  | otherwise
  | forRange
  | whileTrue
  | forEach
  | endBlock (construct : String)
  | leaveLoop
  | nextRound
  | onEvent (event : String)
  | onLoad
  | elementById
  | elementsMatching
  | setContent
  | setValue
  | setStyle
  | addClass
  | removeClass
  | arithmetic (operator : String)
  | array
  | push
  | pop
  | length
  | object
  | property
  | stringify
  | parse
  | now
  | timeout
  | interval
  | comment
  | raw
deriving Repr, DecidableEq

/-- The keys of the commands. -/
def vocabulary : List (String × Instruction) :=
  [("متغير", .declare),
    ("أنشئ_متغير", .declare),
    ("اعط", .assign),
    ("اجعل", .assign),
    ("دالة", .function),
    ("أنشئ_دالة", .function),
    ("أنهِ_دالة", .endBlock "function"),
    ("انتهاء_دالة", .endBlock "function"),
    ("أنهِ دالة", .endBlock "function"),
    ("استدعي", .call),
    ("نادِ", .call),
    ("ارجع", .returnValue),
    ("أرجع", .returnValue),
    ("اطبع", .print),
    ("أظهر", .print),
    ("أظهر_رسالة", .alert),
    ("رسالة", .alert),
    ("اسأل", .ask),
    ("استفسر", .ask),
    ("إذا", .whenTrue),
    ("وإلا_إذا", .otherwiseIf),
    ("else_if", .otherwiseIf),
    ("وإلا", .otherwise),
    ("else", .otherwise),
    ("أنهِ_إذا", .endBlock "if"),
    ("انتهاء_إذا", .endBlock "if"),
    ("أنهِ إذا", .endBlock "if"),
    ("كرر", .forRange),
    ("حلقة", .forRange),
    ("طالما", .whileTrue),
    ("while", .whileTrue),
    ("لكل", .forEach),
    ("for_each", .forEach),
    ("أنهِ_حلقة", .endBlock "loop"),
    ("انتهاء_حلقة", .endBlock "loop"),
    ("أنهِ حلقة", .endBlock "loop"),
    ("اكسر", .leaveLoop),
    ("توقف", .leaveLoop),
    ("تابع", .nextRound),
    ("استمر", .nextRound),
    ("عند_الضغط", .onEvent "onclick"),
    ("onclick", .onEvent "onclick"),
    ("عند_التغيير", .onEvent "onchange"),
    ("onchange", .onEvent "onchange"),
    ("عند_الإدخال", .onEvent "oninput"),
    ("oninput", .onEvent "oninput"),
    ("عند_التحميل", .onLoad),
    ("onload", .onLoad),
    ("اختر_عنصر", .elementById),
    ("getElementById", .elementById),
    ("اختر_عناصر", .elementsMatching),
    ("querySelectorAll", .elementsMatching),
    ("غيّر_نص", .setContent),
    ("innerHTML", .setContent),
    ("غيّر_قيمة", .setValue),
    ("value", .setValue),
    ("غيّر_نمط", .setStyle),
    ("style", .setStyle),
    ("أضف_فئة", .addClass),
    ("addClass", .addClass),
    ("احذف_فئة", .removeClass),
    ("removeClass", .removeClass),
    ("اجمع", .arithmetic "+"),
    ("plus", .arithmetic "+"),
    ("اطرح", .arithmetic "-"),
    ("minus", .arithmetic "-"),
    ("اضرب", .arithmetic "*"),
    ("multiply", .arithmetic "*"),
    ("اقسم", .arithmetic "/"),
    ("divide", .arithmetic "/"),
    ("مصفوفة", .array),
    ("array", .array),
    ("أضف_للمصفوفة", .push),
    ("push", .push),
    ("احذف_من_المصفوفة", .pop),
    ("pop", .pop),
    ("طول_المصفوفة", .length),
    ("length", .length),
    ("كائن", .object),
    ("object", .object),
    ("خاصية", .property),
    ("property", .property),
    ("تحويل_لنص", .stringify),
    ("stringify", .stringify),
    ("تحليل_النص", .parse),
    ("parse", .parse),
    ("الوقت_الحالي", .now),
    ("now", .now),
    ("انتظر", .timeout),
    ("setTimeout", .timeout),
    ("تكرار_دوري", .interval),
    ("setInterval", .interval),
    ("تعليق", .comment),
    ("comment", .comment),
    ("كود_خام", .raw),
    ("raw_code", .raw)]

def Instruction.ofKey? (key : String) : Option Instruction :=
  vocabulary.lookup key

end Script
end Pagewright
