namespace Pagewright
namespace Page

/-!
# The vocabulary of pages

The commands of a page fall in two groups.  Content needs an open page and
opens one where there is none.  The others act on the page itself or end a
block, and never open a page.
-/

/-- A command that adds to the body of a page. -/
inductive Content where
  | heading (level : Nat)
  | paragraph
  | link
  | image
  | button
  | text
  | backgroundColor
  | textColor
  | font
  | startBulletList
  | startNumberedList
  | listItem
  | startSection
  | horizontalRule
  | space
  | textInput
  | passwordInput
  | checkbox
  | startTable
  | tableRow
  | tableCell
deriving Repr, DecidableEq

inductive Instruction where
  | openPage
  | closePage
  | endList
  | endSection
  | endTable
  | content (content : Content)
deriving Repr, DecidableEq

/-- The keys of the commands. -/
def vocabulary : List (String × Instruction) :=
  [("افتح صفحة", .openPage),
    ("أنشئ صفحة", .openPage),
    ("ابدأ صفحة", .openPage),
    ("أغلق صفحة", .closePage),
    ("أنهِ صفحة", .closePage),
    ("أضف عنوان", .content (.heading 1)),
    ("عنوان", .content (.heading 1)),
    ("أضف عنوان_فرعي", .content (.heading 2)),
    ("أضف فقرة", .content .paragraph),
    ("فقرة", .content .paragraph),
    ("أضف رابط", .content .link),
    ("رابط", .content .link),
    ("أضف صورة", .content .image),
    ("صورة", .content .image),
    ("أضف زر", .content .button),
    ("أنشئ زر", .content .button),
    ("زر", .content .button),
    ("أضف نص", .content .text),
    ("نص", .content .text),
    ("غيّر لون_الخلفية إلى", .content .backgroundColor),
    ("غيّر لون_النص إلى", .content .textColor),
    ("غيّر الخط إلى", .content .font),
    ("ابدأ قائمة", .content .startBulletList),
    ("أنشئ قائمة", .content .startBulletList),
    ("ابدأ قائمة_مرقمة", .content .startNumberedList),
    ("أنشئ قائمة_مرقمة", .content .startNumberedList),
    ("أضف عنصر", .content .listItem),
    ("عنصر", .content .listItem),
    ("أنهِ قائمة", .endList),
    ("أغلق قائمة", .endList),
    ("أنهِ قائمة_مرقمة", .endList),
    ("ابدأ قسم", .content .startSection),
    ("أنشئ قسم", .content .startSection),
    ("أنهِ قسم", .endSection),
    ("أغلق قسم", .endSection),
    ("أضف خط_فاصل", .content .horizontalRule),
    ("أضف مسافة", .content .space),
    ("أضف مدخل_نص", .content .textInput),
    ("أضف مدخل_كلمة_سر", .content .passwordInput),
    ("أضف مربع_اختيار", .content .checkbox),
    ("ابدأ جدول", .content .startTable),
    ("أنشئ جدول", .content .startTable),
    ("أضف صف", .content .tableRow),
    ("صف", .content .tableRow),
    ("أضف خانة", .content .tableCell),
    ("خانة", .content .tableCell),
    ("أنهِ جدول", .endTable)]

def Instruction.ofKey? (key : String) : Option Instruction :=
  vocabulary.lookup key

end Page
end Pagewright
