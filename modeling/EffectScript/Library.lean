import EffectScript.Effect

/-!
# The script library

Scripts that come with the engine.  All binary operators share one level and group to the left, so
the scripts put every product that is not the leftmost term in parentheses.
-/

namespace EffectScript.Library

/-- A gain in decibels. -/
def simpleGain : String := "
desc:Simple Gain
tags:utility
slider1:0<-60,24,0.1>Gain (dB)

@slider
gain = db2gain(slider1);

@sample
spl0 *= gain;
spl1 *= gain;
"

/-- A lowpass filter with resonance. -/
def resonantLowpass : String := "
desc:Resonant Lowpass Filter
tags:filter
slider1:1000<20,20000>Frequency (Hz)
slider2:0.8<0,1>Resonance

in_pin:left input
in_pin:right input
out_pin:left output
out_pin:right output

@slider
cut_lp = slider1 * 2 / srate;
res_lp = slider2;
fb_lp = res_lp + (res_lp / (1 - cut_lp));

@sample
n3 = n3 + (cut_lp * (spl0 - n3 + (fb_lp * (n3 - n4))));
n4 = n4 + (cut_lp * (n3 - n4));
spl0 = n4;

rn3 = rn3 + (cut_lp * (spl1 - rn3 + (fb_lp * (rn3 - rn4))));
rn4 = rn4 + (cut_lp * (rn3 - rn4));
spl1 = rn4;
"

/-- A compressor with attack, release and makeup gain. -/
def simpleCompressor : String := "
desc:Simple Compressor
tags:dynamics
slider1:-12<-60,0,1>Threshold (dB)
slider2:4<1,20,0.1>Ratio
slider3:5<0,200,0.1>Attack (ms)
slider4:250<0,1000,1>Release (ms)
slider5:0<-24,24,1>Makeup Gain (dB)

@init
env = 0;

@slider
threshold = db2gain(slider1);
ratio = slider2;
attack = exp(-1 / (slider3 * srate / 1000));
release = exp(-1 / (slider4 * srate / 1000));
makeup = db2gain(slider5);

@sample
peak = max(abs(spl0), abs(spl1));

env = peak > env
  ? (peak * (1 - attack)) + (env * attack)
  : (peak * (1 - release)) + (env * release);

over = env > threshold ? env / threshold : 1;
over = over > 1 ? 1 + ((over - 1) / ratio) : over;
gain = over > 1 ? 1 / over : 1;

spl0 *= gain * makeup;
spl1 *= gain * makeup;
"

/-- A second-order highpass filter. -/
def highPass : String := "
desc:High Pass Filter
tags:filter
slider1:80<20,20000>Frequency (Hz)
slider2:0.707<0.1,10>Q

@slider
freq = slider1 / srate;
q = slider2;
w = 2 * $pi * freq;
cosw = cos(w);
sinw = sin(w);
alpha = sinw / (2 * q);

b0 = (1 + cosw) / 2;
b1 = -(1 + cosw);
b2 = (1 + cosw) / 2;
a0 = 1 + alpha;
a1 = -2 * cosw;
a2 = 1 - alpha;

b0 /= a0;
b1 /= a0;
b2 /= a0;
a1 /= a0;
a2 /= a0;

@sample
y = (b0 * spl0) + (b1 * x1_l) + (b2 * x2_l) - (a1 * y1_l) - (a2 * y2_l);
x2_l = x1_l;
x1_l = spl0;
y2_l = y1_l;
y1_l = y;
spl0 = y;

y = (b0 * spl1) + (b1 * x1_r) + (b2 * x2_r) - (a1 * y1_r) - (a2 * y2_r);
x2_r = x1_r;
x1_r = spl1;
y2_r = y1_r;
y1_r = y;
spl1 = y;
"

/-- Removal of a constant offset. -/
def dcRemove : String := "
desc:DC Offset Removal
tags:filter utility
slider1:5<1,50>Cutoff (Hz)

@slider
pole = 1 - (slider1 * 2 * $pi / srate);

@sample
y_l = spl0 - x_l + (pole * y_l);
x_l = spl0;
spl0 = y_l;

y_r = spl1 - x_r + (pole * y_r);
x_r = spl1;
spl1 = y_r;
"

/-- What a script is for. -/
inductive Category where
  | dynamics
  | filter
  | utility
  deriving DecidableEq, Repr

namespace Category

/-- All categories, in the order in which they are listed. -/
def all : List Category := [dynamics, filter, utility]

/-- The name of a category in listings. -/
def label : Category → String
  | dynamics => "Dynamics"
  | filter => "Filter"
  | utility => "Utility"

end Category

/-- A script of the library. -/
structure Entry where
  name : String
  source : String
  categories : List Category

/-- All scripts, in the order in which they are listed. -/
def entries : List Entry :=
  [⟨"Simple Gain", simpleGain, [.utility]⟩,
   ⟨"Resonant Lowpass", resonantLowpass, [.filter]⟩,
   ⟨"Simple Compressor", simpleCompressor, [.dynamics]⟩,
   ⟨"High Pass Filter", highPass, [.filter]⟩,
   ⟨"DC Remove", dcRemove, [.filter, .utility]⟩]

/-- The names of the scripts in a category. -/
def inCategory (category : Category) : List String :=
  (entries.filter fun entry => entry.categories.contains category).map Entry.name

/-- The source of a script. -/
def script? (name : String) : Option String :=
  (entries.find? fun entry => entry.name == name).map Entry.source

/-- A loaded effect that runs a script of the library. -/
def effect? (name : String) : Logged (Option Effect) := do
  match script? name with
  | none => return none
  | some source =>
    let (loaded, effect) ← Effect.fresh.load source
    return if loaded then some effect else none

end EffectScript.Library
